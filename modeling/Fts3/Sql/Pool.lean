import Fts3.Sql.Proc

/-!
# Interleaved clients

A pool is a store and the clients running on it. A schedule is the list of the clients whose turn it
is; one turn executes one statement. Every run of any number of clients, statement by statement and in
any order, is `Pool.run` for some schedule, and `Pool.trace` lists what happened in it.
-/

namespace Fts3.Sql

variable {σ Q U α : Type}

inductive Act (Q U : Type) where
  | select (q : Q)
  | update (u : U)
  | tx (t : Tx)

/-- A running client, and the store as its last statement left it. -/
structure Thread (σ Q U α : Type) where
  proc : Proc σ Q U α
  last : σ

/-- One executed statement: who, what, the store when the caller's previous statement ended, the store
before and after, and the number of matched rows of an `UPDATE`. -/
structure Event (σ Q U : Type) where
  caller : Nat
  act : Act Q U
  last : σ
  pre : σ
  post : σ
  matched : Nat

structure Pool (σ Q U α : Type) where
  store : σ
  threads : List (Thread σ Q U α)

def Pool.start (s : σ) (ps : List (Proc σ Q U α)) : Pool σ Q U α where
  store := s
  threads := ps.map fun p => ⟨p, s⟩

/-- The next statement of a client at the store `s`: what it is, the rows it matched, the store after
it and the rest of the client. -/
def Proc.next? (exec : U → σ → Nat × σ) : Proc σ Q U α → σ → Option (Act Q U × Nat × σ × Proc σ Q U α)
  | .ret _, _ => none
  | .select q k, s => some (.select q, 0, s, k s)
  | .update u k, s => some (.update u, (exec u s).1, (exec u s).2, k (exec u s).1)
  | .tx t k, s => some (.tx t, 0, s, k)

theorem Proc.next?_cases {exec : U → σ → Nat × σ} {p p' : Proc σ Q U α} {s s' : σ} {a : Act Q U} {n : Nat}
    (h : p.next? exec s = some (a, n, s', p')) :
    (∃ q k, p = .select q k ∧ a = .select q ∧ s' = s ∧ p' = k s) ∨
    (∃ u k, p = .update u k ∧ a = .update u ∧ n = (exec u s).1 ∧ s' = (exec u s).2 ∧ p' = k (exec u s).1) ∨
    ∃ t, p = .tx t p' ∧ a = .tx t ∧ s' = s := by
  cases p with
  | ret a => simp [Proc.next?] at h
  | select q k =>
      simp only [Proc.next?, Option.some.injEq, Prod.mk.injEq] at h
      obtain ⟨rfl, -, rfl, rfl⟩ := h
      exact .inl ⟨q, k, rfl, rfl, rfl, rfl⟩
  | update u k =>
      simp only [Proc.next?, Option.some.injEq, Prod.mk.injEq] at h
      obtain ⟨rfl, rfl, rfl, rfl⟩ := h
      exact .inr (.inl ⟨u, k, rfl, rfl, rfl, rfl, rfl⟩)
  | tx t k =>
      simp only [Proc.next?, Option.some.injEq, Prod.mk.injEq] at h
      obtain ⟨rfl, -, rfl, rfl⟩ := h
      exact .inr (.inr ⟨t, rfl, rfl, rfl⟩)

theorem Proc.Issues.next {exec : U → σ → Nat × σ} {P : U → Prop} {p p' : Proc σ Q U α} {s s' : σ} {a : Act Q U} {n : Nat}
    (hp : p.Issues P) (h : p.next? exec s = some (a, n, s', p')) :
    p'.Issues P ∧ ∀ u, a = .update u → P u := by
  rcases next?_cases h with ⟨q, k, rfl, rfl, -, rfl⟩ | ⟨u, k, rfl, rfl, -, -, rfl⟩ | ⟨t, rfl, rfl, -⟩
  · exact ⟨hp s, by simp⟩
  · refine ⟨hp.2 _, ?_⟩
    intro u' hu'
    cases hu'
    exact hp.1
  · exact ⟨hp, by simp⟩

theorem Proc.Unless.next {exec : U → σ → Nat × σ} {C : U → Nat → Prop} {Φ : α → Prop} {p p' : Proc σ Q U α}
    {s s' : σ} {a : Act Q U} {n : Nat} (hp : p.Unless C Φ) (h : p.next? exec s = some (a, n, s', p')) :
    (∃ u, a = .update u ∧ C u n) ∨ p'.Unless C Φ := by
  rcases next?_cases h with ⟨q, k, rfl, rfl, -, rfl⟩ | ⟨u, k, rfl, rfl, rfl, -, rfl⟩ | ⟨t, rfl, rfl, -⟩
  · exact .inr (hp s)
  · exact (hp _).imp_left fun hu => ⟨u, rfl, hu⟩
  · exact .inr hp

def Event.Executes (exec : U → σ → Nat × σ) (e : Event σ Q U) : Prop :=
  match e.act with
  | .update u => e.matched = (exec u e.pre).1 ∧ e.post = (exec u e.pre).2
  | _ => e.post = e.pre

/-- Every event starts at the store at which the one before it ended, the first one at `s`. -/
def Event.Chained : σ → List (Event σ Q U) → Prop
  | _, [] => True
  | s, e :: es => e.pre = s ∧ Chained e.post es

namespace Pool

variable (exec : U → σ → Nat × σ)

/-- The turn of client `i`; `none` when it has returned or does not exist. -/
def step (P : Pool σ Q U α) (i : Nat) : Option (Event σ Q U × Pool σ Q U α) :=
  match P.threads[i]? with
  | none => none
  | some th =>
      match th.proc.next? exec P.store with
      | none => none
      | some (a, n, s, p) =>
          some (⟨i, a, th.last, P.store, s, n⟩, ⟨s, P.threads.set i ⟨p, s⟩⟩)

def run : Pool σ Q U α → List Nat → Pool σ Q U α
  | P, [] => P
  | P, i :: is =>
      match P.step exec i with
      | none => run P is
      | some (_, P') => run P' is

def trace : Pool σ Q U α → List Nat → List (Event σ Q U)
  | _, [] => []
  | P, i :: is =>
      match P.step exec i with
      | none => trace P is
      | some (e, P') => e :: trace P' is

def Done (P : Pool σ Q U α) : Prop :=
  ∀ th ∈ P.threads, th.proc.returned = true

instance (P : Pool σ Q U α) : Decidable P.Done :=
  inferInstanceAs (Decidable (∀ th ∈ P.threads, th.proc.returned = true))

def result? (P : Pool σ Q U α) (i : Nat) : Option α :=
  match P.threads[i]? with
  | some ⟨.ret a, _⟩ => some a
  | _ => none

variable {exec}

theorem run_append (P : Pool σ Q U α) (is js : List Nat) :
    P.run exec (is ++ js) = (P.run exec is).run exec js := by
  induction is generalizing P with
  | nil => rfl
  | cons i is ih =>
      simp only [List.cons_append, run]
      cases P.step exec i with
      | none => exact ih P
      | some r => exact ih r.2

theorem trace_append (P : Pool σ Q U α) (is js : List Nat) :
    P.trace exec (is ++ js) = P.trace exec is ++ (P.run exec is).trace exec js := by
  induction is generalizing P with
  | nil => rfl
  | cons i is ih =>
      simp only [List.cons_append, run, trace]
      cases P.step exec i with
      | none => exact ih P
      | some r => simp [ih r.2]

/-! ## One turn -/

theorem step_eq_some {P P' : Pool σ Q U α} {i : Nat} {e : Event σ Q U} (h : P.step exec i = some (e, P')) :
    ∃ th a n s p, P.threads[i]? = some th ∧ th.proc.next? exec P.store = some (a, n, s, p) ∧
      e = ⟨i, a, th.last, P.store, s, n⟩ ∧ P' = ⟨s, P.threads.set i ⟨p, s⟩⟩ := by
  unfold step at h
  split at h
  · cases h
  · rename_i th hth
    split at h
    · cases h
    · rename_i a n s p hn
      simp only [Option.some.injEq, Prod.mk.injEq] at h
      exact ⟨th, a, n, s, p, hth, hn, h.1.symm, h.2.symm⟩

theorem step_store {P P' : Pool σ Q U α} {i : Nat} {e : Event σ Q U} (h : P.step exec i = some (e, P')) :
    e.pre = P.store ∧ e.post = P'.store := by
  obtain ⟨th, a, n, s, p, -, -, rfl, rfl⟩ := step_eq_some h
  exact ⟨rfl, rfl⟩

theorem step_act {P P' : Pool σ Q U α} {i : Nat} {e : Event σ Q U} (h : P.step exec i = some (e, P')) :
    e.Executes exec := by
  obtain ⟨th, a, n, s, p, -, hn, rfl, -⟩ := step_eq_some h
  rcases Proc.next?_cases hn with ⟨q, k, -, rfl, rfl, -⟩ | ⟨u, k, -, rfl, rfl, rfl, -⟩ | ⟨t, -, rfl, rfl⟩
  · rfl
  · exact ⟨rfl, rfl⟩
  · rfl

/-! ## Whole runs -/

/-- The invariant rule: what every turn whose event meets `C` keeps, a run whose events all meet `C`
keeps. -/
theorem run_invariant {C : Event σ Q U → Prop} {I : Pool σ Q U α → Prop}
    (hstep : ∀ {P P' i e}, P.step exec i = some (e, P') → C e → I P → I P') {P : Pool σ Q U α}
    (is : List Nat) (hC : ∀ e ∈ P.trace exec is, C e) (hI : I P) : I (P.run exec is) := by
  induction is generalizing P with
  | nil => exact hI
  | cons i is ih =>
      simp only [run]
      simp only [trace] at hC
      cases hs : P.step exec i with
      | none =>
          rw [hs] at hC
          exact ih hC hI
      | some r =>
          obtain ⟨e, P'⟩ := r
          rw [hs] at hC
          exact ih (fun e' he' => hC e' (by simp [he'])) (hstep hs (hC e (by simp)) hI)

theorem trace_forall {I : Pool σ Q U α → Prop} {E : Event σ Q U → Prop}
    (hstep : ∀ {P P' i e}, P.step exec i = some (e, P') → I P → I P' ∧ E e) {P : Pool σ Q U α}
    (is : List Nat) (hI : I P) : ∀ e ∈ P.trace exec is, E e := by
  induction is generalizing P with
  | nil => simp [trace]
  | cons i is ih =>
      simp only [trace]
      cases hs : P.step exec i with
      | none => exact ih hI
      | some r =>
          obtain ⟨hI', hE⟩ := hstep hs hI
          simp only [List.mem_cons, forall_eq_or_imp]
          exact ⟨hE, ih hI'⟩

theorem trace_executes (P : Pool σ Q U α) (is : List Nat) :
    ∀ e ∈ P.trace exec is, e.Executes exec :=
  trace_forall (I := fun _ => True) (fun hs _ => ⟨trivial, step_act hs⟩) is trivial

/-- A reflexive and transitive relation that holds across every event holds between the stores at the
two ends of a run. -/
theorem run_rel {R : σ → σ → Prop} (hrefl : ∀ s, R s s) (htrans : ∀ {s t u}, R s t → R t u → R s u)
    {P : Pool σ Q U α} (is : List Nat) (hR : ∀ e ∈ P.trace exec is, R e.pre e.post) :
    R P.store (P.run exec is).store := by
  refine run_invariant (C := fun e => R e.pre e.post) (I := fun P' => R P.store P'.store) ?_ is hR (hrefl _)
  intro P₁ P₂ i e hs hC hI
  obtain ⟨hpre, hpost⟩ := step_store hs
  rw [hpre, hpost] at hC
  exact htrans hI hC

def Issues (P : U → Prop) (pool : Pool σ Q U α) : Prop :=
  ∀ th ∈ pool.threads, th.proc.Issues P

theorem Issues.step {P : U → Prop} {pool pool' : Pool σ Q U α} {i : Nat} {e : Event σ Q U}
    (h : pool.Issues P) (hs : pool.step exec i = some (e, pool')) :
    pool'.Issues P ∧ ∀ u, e.act = .update u → P u := by
  obtain ⟨th, a, n, s, p, hth, hn, rfl, rfl⟩ := step_eq_some hs
  obtain ⟨hp, ha⟩ := (h th (List.mem_of_getElem? hth)).next hn
  refine ⟨?_, ha⟩
  intro th' hth'
  rcases List.mem_or_eq_of_mem_set hth' with hmem | rfl
  · exact h th' hmem
  · exact hp

theorem Issues.trace {P : U → Prop} {pool : Pool σ Q U α} (h : pool.Issues P) (is : List Nat) :
    ∀ e ∈ pool.trace exec is, ∀ u, e.act = .update u → P u :=
  trace_forall (fun hs hI => hI.step hs) is h

theorem issues_start {P : U → Prop} {s : σ} {ps : List (Proc σ Q U α)} (h : ∀ p ∈ ps, p.Issues P) :
    (Pool.start s ps).Issues P := by
  intro th hth
  obtain ⟨p, hp, rfl⟩ := List.mem_map.mp hth
  exact h p hp

/-! ## A call and its deciding statement -/

theorem result?_eq_some {P : Pool σ Q U α} {i : Nat} {a : α} (h : P.result? i = some a) :
    ∃ s, P.threads[i]? = some ⟨.ret a, s⟩ := by
  unfold result? at h
  split at h
  · rename_i b s hth
    cases h
    exact ⟨s, hth⟩
  · cases h

/-- A client that never executes an `UPDATE` with `C` returns a value with `Φ`, if it returns. -/
theorem unless_result {C : U → Nat → Prop} {Φ : α → Prop} {P : Pool σ Q U α} {i : Nat} {a : α} (is : List Nat)
    (hP : ∃ th, P.threads[i]? = some th ∧ th.proc.Unless C Φ)
    (h : ∀ e ∈ P.trace exec is, e.caller = i → ∀ u, e.act = .update u → ¬C u e.matched)
    (ha : (P.run exec is).result? i = some a) : Φ a := by
  suffices hrun : ∃ th, (P.run exec is).threads[i]? = some th ∧ th.proc.Unless C Φ by
    obtain ⟨th, hth, hp⟩ := hrun
    obtain ⟨s, hret⟩ := result?_eq_some ha
    rw [hret] at hth
    cases hth
    exact hp
  refine run_invariant (I := fun P : Pool σ Q U α => ∃ th, P.threads[i]? = some th ∧ th.proc.Unless C Φ)
    ?_ is h hP
  rintro P P' k e hs he ⟨th, hth, hp⟩
  obtain ⟨th', a, n, s, p, hth', hn, rfl, rfl⟩ := step_eq_some hs
  by_cases hki : k = i
  · subst hki
    obtain rfl : th = th' := Option.some.inj (hth.symm.trans hth')
    rcases hp.next hn with ⟨u, rfl, hu⟩ | hp'
    · exact absurd hu (he rfl u rfl)
    · refine ⟨⟨p, s⟩, ?_, hp'⟩
      simp [List.getElem?_set_self (List.getElem?_eq_some_iff.mp hth).1]
  · refine ⟨th, ?_, hp⟩
    simp only [List.getElem?_set_ne hki]
    exact hth

/-! ## Traces as chains of stores -/

theorem trace_chained (P : Pool σ Q U α) (is : List Nat) : Event.Chained P.store (P.trace exec is) := by
  induction is generalizing P with
  | nil => trivial
  | cons i is ih =>
      simp only [trace]
      cases hs : P.step exec i with
      | none => exact ih P
      | some r =>
          obtain ⟨hpre, hpost⟩ := step_store hs
          exact ⟨hpre, hpost ▸ ih r.2⟩

end Pool

namespace Event

theorem Chained.of_append {s : σ} {es₁ es₂ : List (Event σ Q U)} (h : Chained s (es₁ ++ es₂)) :
    Chained s es₁ ∧ ∃ s', Chained s' es₂ := by
  induction es₁ generalizing s with
  | nil => exact ⟨trivial, s, h⟩
  | cons e es ih =>
      obtain ⟨hes, hrest⟩ := ih h.2
      exact ⟨⟨h.1, hes⟩, hrest⟩

/-- What every event of a chain keeps holds at every moment of it. -/
theorem Chained.invariant {I : σ → Prop} {s : σ} {es : List (Event σ Q U)} (h : Chained s es)
    (hI : ∀ e ∈ es, I e.pre → I e.post) (hs : I s) : ∀ e ∈ es, I e.pre ∧ I e.post := by
  induction es generalizing s with
  | nil => simp
  | cons e es ih =>
      obtain ⟨rfl, hes⟩ := h
      simp only [List.mem_cons, forall_eq_or_imp] at hI ⊢
      exact ⟨⟨hs, hI.1 hs⟩, ih hes hI.2 (hI.1 hs)⟩

section taking

variable {R : σ → Prop} {taken : Event σ Q U → Bool}

theorem Chained.filter_eq_nil {s : σ} {es : List (Event σ Q U)} (h : Chained s es) (hs : ¬R s)
    (henter : ∀ e ∈ es, R e.post → R e.pre) (htaken : ∀ e ∈ es, taken e = true → R e.pre) :
    es.filter taken = [] := by
  induction es generalizing s with
  | nil => rfl
  | cons e es ih =>
      obtain ⟨rfl, hes⟩ := h
      have he : taken e = false := by
        rw [← Bool.not_eq_true]
        exact fun ht => hs (htaken e (by simp) ht)
      rw [List.filter_cons_of_neg (by simp [he])]
      exact ih hes (fun hp => hs (henter e (by simp) hp)) (fun e' he' => henter e' (by simp [he']))
        (fun e' he' => htaken e' (by simp [he']))

/-- While nothing makes `R` true, at most one event happens that needs `R` and makes it false. -/
theorem Chained.filter_length_le_one {s : σ} {es : List (Event σ Q U)} (h : Chained s es)
    (henter : ∀ e ∈ es, R e.post → R e.pre)
    (htaken : ∀ e ∈ es, taken e = true → R e.pre ∧ ¬R e.post) : (es.filter taken).length ≤ 1 := by
  induction es generalizing s with
  | nil => simp
  | cons e es ih =>
      obtain ⟨rfl, hes⟩ := h
      cases he : taken e with
      | true =>
          have hnil := hes.filter_eq_nil (htaken e (by simp) he).2 (fun e' he' => henter e' (by simp [he']))
            (fun e' he' ht => (htaken e' (by simp [he']) ht).1)
          simp [he, hnil]
      | false =>
          rw [List.filter_cons_of_neg (by simp [he])]
          exact ih hes (fun e' he' => henter e' (by simp [he'])) (fun e' he' => htaken e' (by simp [he']))

end taking

end Event

end Fts3.Sql
