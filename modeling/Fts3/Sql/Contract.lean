import Mathlib.Algebra.GroupWithZero.Nat
import Fts3.Sql.Memory

/-!
# Contracts between clients

A contract says what every client may rely on while the others run, what each of its `UPDATE`s promises, and
how a budget is shared: the store has a cost, a client may hold credits, and a statement moves the one into
the other without creating any. `cond` is what a run is asked to meet, statement by statement.
-/

namespace Fts3.Sql

variable {σ Q U α β : Type}

/-- `cond` and `promise` are about a statement, the store when the caller's previous statement ended and the
store in which the statement is executed. -/
structure Contract (σ Q U : Type) where
  rely : σ → σ → Prop
  refl : ∀ s, rely s s
  trans : ∀ {s₁ s₂ s₃}, rely s₁ s₂ → rely s₂ s₃ → rely s₁ s₃
  cond : Act Q U → σ → σ → Prop := fun _ _ _ => True
  promise : U → σ → σ → Prop := fun _ _ _ => True
  cost : σ → Nat := fun _ => 0
  budget : Nat := 0

namespace Contract

variable (K : Contract σ Q U)

/-- What a client with `g` credits knows when it executes a statement at `s'`. -/
structure Ready (a : Act Q U) (g : Nat) (s s' : σ) : Prop where
  rely : K.rely s s'
  cond : K.cond a s s'
  budget : K.cost s' + g ≤ K.budget

end Contract

namespace Proc

/-- From the store `s` on and with `g` credits, the client honors the contract and returns with `Φ`. -/
def Honors (exec : U → σ → Nat × σ) (K : Contract σ Q U) (Φ : α → Nat → σ → Prop) :
    Proc σ Q U α → Nat → σ → Prop
  | .ret a, g, s => Φ a g s
  | .select q k, g, s => ∀ s', K.Ready (.select q) g s s' → (k s').Honors exec K Φ g s'
  | .update u k, g, s => ∀ s', K.Ready (.update u) g s s' →
      K.promise u s s' ∧ K.rely s' (exec u s').2 ∧
        ∃ g', K.cost (exec u s').2 + g' ≤ K.cost s' + g ∧
          (k (exec u s').1).Honors exec K Φ g' (exec u s').2
  | .tx t k, g, s => ∀ s', K.Ready (.tx t) g s s' → k.Honors exec K Φ g s'

variable {exec : U → σ → Nat × σ} {K : Contract σ Q U}

section honors

variable {Φ : α → Nat → σ → Prop} {g : Nat} {s : σ}

theorem honors_select {q : Q} {k : σ → Proc σ Q U α} : (Proc.select q k).Honors exec K Φ g s ↔
    ∀ s', K.Ready (.select q) g s s' → (k s').Honors exec K Φ g s' := Iff.rfl

theorem honors_tx {t : Tx} {k : Proc σ Q U α} : (Proc.tx t k).Honors exec K Φ g s ↔
    ∀ s', K.Ready (.tx t) g s s' → k.Honors exec K Φ g s' := Iff.rfl

end honors

theorem Honors.bind {p : Proc σ Q U α} {f : α → Proc σ Q U β} {Φ : α → Nat → σ → Prop}
    {Ψ : β → Nat → σ → Prop} (hf : ∀ a g s, Φ a g s → (f a).Honors exec K Ψ g s) {g : Nat} {s : σ}
    (hp : p.Honors exec K Φ g s) : (p.bind f).Honors exec K Ψ g s := by
  induction p generalizing g s with
  | ret a => exact hf a g s hp
  | select q k ih => exact fun s' h => ih s' (hp s' h)
  | update u k ih =>
      intro s' h
      obtain ⟨hpromise, hrely, g', hcost, hrest⟩ := hp s' h
      exact ⟨hpromise, hrely, g', hcost, ih _ hrest⟩
  | tx t k ih => exact fun s' h => ih (hp s' h)

theorem Honors.mono {p : Proc σ Q U α} {Φ Ψ : α → Nat → σ → Prop} (h : ∀ a g s, Φ a g s → Ψ a g s) {g : Nat}
    {s : σ} (hp : p.Honors exec K Φ g s) : p.Honors exec K Ψ g s := by
  rw [← p.bind_ret]
  exact hp.bind h

/-- The contract of a client whose statements are known but not what its queries answer: every statement is
within the contract wherever the stable property `I` holds. -/
theorem Issues.honors {P : U → Prop} {I : σ → Prop} {p : Proc σ Q U α} (hp : p.Issues P)
    (hI : ∀ s s', K.rely s s' → I s → I s')
    (hu : ∀ u s s', P u → I s → K.Ready (.update u) 0 s s' →
      K.promise u s s' ∧ K.rely s' (exec u s').2 ∧ K.cost (exec u s').2 ≤ K.cost s')
    {s : σ} (hs : I s) : p.Honors exec K (fun _ _ s => I s) 0 s := by
  induction p generalizing s with
  | ret a => exact hs
  | select q k ih => exact fun s' h => ih s' (hp s') (hI s s' h.rely hs)
  | update u k ih =>
      intro s' h
      obtain ⟨hpromise, hrely, hcost⟩ := hu u s s' hp.1 hs h
      exact ⟨hpromise, hrely, 0, hcost, ih _ (hp.2 _) (hI _ _ hrely (hI s s' h.rely hs))⟩
  | tx t k ih => exact fun s' h => ih hp (hI s s' h.rely hs)

/-- A client that only reads keeps its credits. -/
theorem Issues.honors_reads {I : σ → Prop} {p : Proc σ Q U α} (hp : p.Issues fun _ => False)
    (hI : ∀ s s', K.rely s s' → I s → I s') {g : Nat} {s : σ} (hs : I s) :
    p.Honors exec K (fun _ g' s => g' = g ∧ I s) g s := by
  induction p generalizing s with
  | ret a => exact ⟨rfl, hs⟩
  | select q k ih => exact fun s' h => ih s' (hp s') (hI s s' h.rely hs)
  | update u k ih => exact hp.1.elim
  | tx t k ih => exact fun s' h => ih hp (hI s s' h.rely hs)

/-- A client needs no more credits than it asks for. -/
theorem Honors.weaken {p : Proc σ Q U α} {Φ : α → σ → Prop} {g g' : Nat} {s : σ}
    (hp : p.Honors exec K (fun a _ s => Φ a s) g s) (hg : g ≤ g') : p.Honors exec K (fun a _ s => Φ a s) g' s := by
  have hready : ∀ {act : Act Q U} {s s' : σ} {g g'}, g ≤ g' → K.Ready act g' s s' → K.Ready act g s s' :=
    fun hg h => ⟨h.rely, h.cond, by have := h.budget; omega⟩
  induction p generalizing g g' s with
  | ret a => exact hp
  | select q k ih => exact fun s' h => ih s' (hp s' (hready hg h)) hg
  | update u k ih =>
      intro s' h
      obtain ⟨hpromise, hrely, g₁, hcost, hrest⟩ := hp s' (hready hg h)
      exact ⟨hpromise, hrely, g₁, by omega, hrest⟩
  | tx t k ih => exact fun s' h => ih (hp s' (hready hg h)) hg

/-- A stable property still holds when the client returns. -/
theorem Honors.stable {p : Proc σ Q U α} {Φ : α → Nat → σ → Prop} {I : σ → Prop} {g : Nat} {s : σ}
    (hp : p.Honors exec K Φ g s) (hI : ∀ s s', K.rely s s' → I s → I s') (hs : I s) :
    p.Honors exec K (fun a g s => Φ a g s ∧ I s) g s := by
  induction p generalizing g s with
  | ret a => exact ⟨hp, hs⟩
  | select q k ih => exact fun s' h => ih s' (hp s' h) (hI s s' h.rely hs)
  | update u k ih =>
      intro s' h
      obtain ⟨hpromise, hrely, g', hcost, hrest⟩ := hp s' h
      exact ⟨hpromise, hrely, g', hcost, ih _ hrest (hI _ _ hrely (hI s s' h.rely hs))⟩
  | tx t k ih => exact fun s' h => ih (hp s' h) (hI s s' h.rely hs)

/-- A loop that keeps `I`. -/
theorem honors_forM {γ : Type} {I : σ → Prop} {xs : List γ} {f : γ → Proc σ Q U PUnit}
    (hf : ∀ x ∈ xs, ∀ s, I s → (f x).Honors exec K (fun _ _ s => I s) 0 s) {s : σ} (hs : I s) :
    (xs.forM f).Honors exec K (fun _ _ s => I s) 0 s := by
  induction xs generalizing s with
  | nil => exact hs
  | cons x xs ih =>
      refine (hf x (by simp) s hs).bind fun _ g s' hs' => ?_
      exact (ih (fun y hy => hf y (by simp [hy])) hs').weaken (Nat.zero_le g)

/-- The results of clients that each return items with the stable property `R`, from items with the stable property
`T`. -/
theorem honors_collect {γ : Type} {I : σ → Prop} {R : β → σ → Prop} {T : γ → σ → Prop}
    (hR : ∀ y s s', K.rely s s' → R y s → R y s') (hT : ∀ x s s', K.rely s s' → T x s → T x s') {xs : List γ}
    {f : γ → Proc σ Q U (List β)}
    (hf : ∀ x ∈ xs, ∀ s, I s → T x s → (f x).Honors exec K (fun ys _ s => I s ∧ ∀ y ∈ ys, R y s) 0 s) {s : σ}
    (hs : I s) (hxs : ∀ x ∈ xs, T x s) :
    (collect f xs).Honors exec K (fun ys _ s => I s ∧ ∀ y ∈ ys, R y s) 0 s := by
  induction xs generalizing s with
  | nil => exact ⟨hs, by simp⟩
  | cons x xs ih =>
      have hhead := (hf x (by simp) s hs (hxs x (by simp))).stable (I := fun s => ∀ x ∈ xs, T x s)
        (fun _ _ hr h x hx => hT x _ _ hr (h x hx)) fun y hy => hxs y (by simp [hy])
      refine hhead.bind fun ys g s₁ ⟨⟨hs₁, hys⟩, hxs₁⟩ => ?_
      have htail := (ih (fun y hy => hf y (by simp [hy])) hs₁ hxs₁).stable (I := fun s => ∀ y ∈ ys, R y s)
        (fun _ _ hr h y hy => hR y _ _ hr (h y hy)) hys
      refine Honors.weaken (htail.bind fun zs _ s₂ ⟨⟨hs₂, hzs⟩, hys₂⟩ => ?_) (Nat.zero_le g)
      refine ⟨hs₂, fun y hy => ?_⟩
      rcases List.mem_append.mp hy with hy | hy
      · exact hys₂ y hy
      · exact hzs y hy

/-- The same for clients of which one may throw. -/
theorem honors_tryCollect {γ : Type} {I : σ → Prop} {R : β → σ → Prop}
    (hR : ∀ y s s', K.rely s s' → R y s → R y s') {xs : List γ} {f : γ → Proc σ Q U (Option (List β))}
    (hf : ∀ x ∈ xs, ∀ s, I s → (f x).Honors exec K (fun ys _ s => I s ∧ ∀ y ∈ ys.getD [], R y s) 0 s) {s : σ}
    (hs : I s) : (tryCollect f xs).Honors exec K (fun ys _ s => I s ∧ ∀ y ∈ ys.getD [], R y s) 0 s := by
  induction xs generalizing s with
  | nil => exact ⟨hs, by simp⟩
  | cons x xs ih =>
      refine (hf x (by simp) s hs).bind fun ys g s₁ ⟨hs₁, hys⟩ => ?_
      cases ys with
      | none => exact Honors.weaken (p := .ret none) ⟨hs₁, by simp⟩ (Nat.zero_le g)
      | some ys =>
          have htail := (ih (fun y hy => hf y (by simp [hy])) hs₁).stable (I := fun s => ∀ y ∈ ys, R y s)
            (fun _ _ hr h y hy => hR y _ _ hr (h y hy)) hys
          refine Honors.weaken (htail.bind fun zs _ s₂ ⟨⟨hs₂, hzs⟩, hys₂⟩ => ?_) (Nat.zero_le g)
          cases zs with
          | none => exact ⟨hs₂, by simp⟩
          | some zs =>
              refine ⟨hs₂, fun y hy => ?_⟩
              rcases List.mem_append.mp hy with hy | hy
              · exact hys₂ y hy
              · exact hzs y hy

theorem Honors.next {Φ : α → Nat → σ → Prop} {p p' : Proc σ Q U α} {s s' s'' : σ} {a : Act Q U} {n g : Nat}
    (hp : p.Honors exec K Φ g s) (hready : K.Ready a g s s')
    (h : p.next? exec s' = some (a, n, s'', p')) :
    K.rely s' s'' ∧ (∀ u, a = .update u → K.promise u s s') ∧
      ∃ g', K.cost s'' + g' ≤ K.cost s' + g ∧ p'.Honors exec K Φ g' s'' := by
  rcases next?_cases h with ⟨q, k, rfl, rfl, rfl, rfl⟩ | ⟨u, k, rfl, rfl, -, rfl, rfl⟩ | ⟨t, rfl, rfl, rfl⟩
  · exact ⟨K.refl _, by simp, g, Nat.le_refl _, hp _ hready⟩
  · obtain ⟨hpromise, hrely, g', hcost, hrest⟩ := hp _ hready
    refine ⟨hrely, ?_, g', hcost, hrest⟩
    intro u' hu'
    cases hu'
    exact hpromise
  · exact ⟨K.refl _, by simp, g, Nat.le_refl _, hp _ hready⟩

end Proc

theorem sum_set_add {gs : List Nat} {i g : Nat} (h : gs[i]? = some g) (g' : Nat) :
    (gs.set i g').sum + g = gs.sum + g' := by
  induction gs generalizing i with
  | nil => simp at h
  | cons x gs ih =>
      cases i with
      | zero =>
          simp only [List.getElem?_cons_zero, Option.some.injEq] at h
          subst h
          simp only [List.set_cons_zero, List.sum_cons]
          omega
      | succ i =>
          have := ih (by simpa using h)
          simp only [List.set_cons_succ, List.sum_cons]
          omega

theorem le_sum_of_getElem? {gs : List Nat} {i g : Nat} (h : gs[i]? = some g) : g ≤ gs.sum := by
  have := sum_set_add h 0
  omega

namespace Pool

variable {exec : U → σ → Nat × σ} {K : Contract σ Q U}

/-- Every client honors the contract from its last statement on with the credits it holds, and the store has
room for all of them. -/
def HonorsWith (exec : U → σ → Nat × σ) (K : Contract σ Q U) (gs : List Nat) (P : Pool σ Q U α) : Prop :=
  K.cost P.store + gs.sum ≤ K.budget ∧
    ∀ (i : Nat) (th : Thread σ Q U α), P.threads[i]? = some th → ∃ g, gs[i]? = some g ∧ K.rely th.last P.store ∧
      th.proc.Honors exec K (fun _ _ _ => True) g th.last

/-- The same where client `i` is to return with `Φ i`. -/
def HonorsEach (exec : U → σ → Nat × σ) (K : Contract σ Q U) (Φ : Nat → α → Nat → σ → Prop) (gs : List Nat)
    (P : Pool σ Q U α) : Prop :=
  K.cost P.store + gs.sum ≤ K.budget ∧
    ∀ (i : Nat) (th : Thread σ Q U α), P.threads[i]? = some th → ∃ g, gs[i]? = some g ∧ K.rely th.last P.store ∧
      th.proc.Honors exec K (Φ i) g th.last

section each

variable {Φ : Nat → α → Nat → σ → Prop}

theorem honorsEach_start {s : σ} {ps : List (Proc σ Q U α)} (hcost : K.cost s ≤ K.budget)
    (h : ∀ (i : Nat) p, ps[i]? = some p → p.Honors exec K (Φ i) 0 s) :
    (Pool.start s ps).HonorsEach exec K Φ (List.replicate ps.length 0) := by
  refine ⟨by simpa [Pool.start, List.sum_replicate_nat] using hcost, ?_⟩
  intro i th hth
  obtain ⟨p, hp, rfl⟩ : ∃ p, ps[i]? = some p ∧ ⟨p, s⟩ = th := by simpa [Pool.start] using hth
  have hi : i < ps.length := (List.getElem?_eq_some_iff.mp hp).1
  exact ⟨0, by simp [hi], K.refl s, h i p hp⟩

/-- One turn: the statement is within the contract, and credits are moved, not created. -/
theorem HonorsEach.step {gs : List Nat} {P P' : Pool σ Q U α} {i : Nat} {e : Event σ Q U}
    (h : P.HonorsEach exec K Φ gs) (hs : P.step exec i = some (e, P')) (hC : K.cond e.act e.last e.pre) :
    (∃ gs', P'.HonorsEach exec K Φ gs') ∧ K.rely e.pre e.post ∧
      ∀ u, e.act = .update u → K.promise u e.last e.pre := by
  obtain ⟨th, a, n, s, p, hth, hn, rfl, rfl⟩ := step_eq_some hs
  obtain ⟨hbudget, hthreads⟩ := h
  obtain ⟨g, hg, hlast, hp⟩ := hthreads i th hth
  have hroom : K.cost P.store + g ≤ K.budget := by
    have := le_sum_of_getElem? hg
    omega
  obtain ⟨hrely, hpromise, g', hcost, hrest⟩ := hp.next ⟨hlast, hC, hroom⟩ hn
  refine ⟨⟨gs.set i g', ?_, ?_⟩, hrely, hpromise⟩
  · have := sum_set_add hg g'
    dsimp only
    omega
  · intro k th' hth'
    by_cases hki : k = i
    · subst hki
      have hself : (P.threads.set k ⟨p, s⟩)[k]? = some ⟨p, s⟩ := by
        simp [List.getElem?_set_self (List.getElem?_eq_some_iff.mp hth).1]
      obtain rfl : (⟨p, s⟩ : Thread σ Q U α) = th' := Option.some.inj (hself.symm.trans hth')
      exact ⟨g', by simp [List.getElem?_set_self (List.getElem?_eq_some_iff.mp hg).1], K.refl s, hrest⟩
    · have hki' : i ≠ k := fun h => hki h.symm
      simp only [List.getElem?_set_ne hki'] at hth'
      obtain ⟨g₀, hg₀, hlast₀, hp₀⟩ := hthreads k th' hth'
      exact ⟨g₀, by simpa only [List.getElem?_set_ne hki'] using hg₀, K.trans hlast₀ hrely, hp₀⟩

/-- Along a run that meets the condition, every statement is within the contract. -/
theorem HonorsEach.trace {gs : List Nat} {P : Pool σ Q U α} (h : P.HonorsEach exec K Φ gs) (is : List Nat)
    (hC : ∀ e ∈ P.trace exec is, K.cond e.act e.last e.pre) :
    ∀ e ∈ P.trace exec is, K.rely e.pre e.post ∧ ∀ u, e.act = .update u → K.promise u e.last e.pre := by
  induction is generalizing P gs with
  | nil => simp [Pool.trace]
  | cons i is ih =>
      simp only [Pool.trace] at hC ⊢
      cases hs : P.step exec i with
      | none =>
          rw [hs] at hC
          exact ih h hC
      | some r =>
          rw [hs] at hC
          simp only [List.mem_cons, forall_eq_or_imp] at hC ⊢
          obtain ⟨⟨gs', h'⟩, hrely, hpromise⟩ := h.step hs hC.1
          exact ⟨⟨hrely, hpromise⟩, ih h' hC.2⟩

/-- A stable property holds at every moment of a run that meets the condition. -/
theorem HonorsEach.invariant {gs : List Nat} {P : Pool σ Q U α} (h : P.HonorsEach exec K Φ gs) (is : List Nat)
    (hC : ∀ e ∈ P.trace exec is, K.cond e.act e.last e.pre) {I : σ → Prop}
    (hI : ∀ s s', K.rely s s' → I s → I s') (hstart : I P.store) :
    ∀ e ∈ P.trace exec is, I e.pre ∧ I e.post :=
  (trace_chained P is).invariant (fun e he => hI _ _ (h.trace is hC e he).1) hstart

theorem HonorsEach.run {gs : List Nat} {P : Pool σ Q U α} (h : P.HonorsEach exec K Φ gs) (is : List Nat)
    (hC : ∀ e ∈ P.trace exec is, K.cond e.act e.last e.pre) : ∃ gs', (P.run exec is).HonorsEach exec K Φ gs' :=
  run_invariant (C := fun e => K.cond e.act e.last e.pre) (I := fun P => ∃ gs', P.HonorsEach exec K Φ gs')
    (fun hs hC ⟨_, h⟩ => (h.step hs hC).1) is hC ⟨gs, h⟩

/-- What a client has returned, it has returned within what the others rely on. -/
theorem HonorsEach.result {gs : List Nat} {P : Pool σ Q U α} (h : P.HonorsEach exec K Φ gs) {i : Nat} {a : α}
    (ha : P.result? i = some a) : ∃ g s, Φ i a g s ∧ K.rely s P.store := by
  obtain ⟨s, hth⟩ := result?_eq_some ha
  obtain ⟨g, -, hrely, hret⟩ := h.2 i _ hth
  exact ⟨g, s, hret, hrely⟩

end each

theorem honorsWith_start {s : σ} {ps : List (Proc σ Q U α)} (hcost : K.cost s ≤ K.budget)
    (h : ∀ p ∈ ps, p.Honors exec K (fun _ _ _ => True) 0 s) :
    (Pool.start s ps).HonorsWith exec K (List.replicate ps.length 0) :=
  honorsEach_start (Φ := fun _ _ _ _ => True) hcost fun _ p hp => h p (List.mem_of_getElem? hp)

theorem HonorsWith.trace {gs : List Nat} {P : Pool σ Q U α} (h : P.HonorsWith exec K gs) (is : List Nat)
    (hC : ∀ e ∈ P.trace exec is, K.cond e.act e.last e.pre) :
    ∀ e ∈ P.trace exec is, K.rely e.pre e.post ∧ ∀ u, e.act = .update u → K.promise u e.last e.pre :=
  HonorsEach.trace (Φ := fun _ _ _ _ => True) h is hC

theorem HonorsWith.invariant {gs : List Nat} {P : Pool σ Q U α} (h : P.HonorsWith exec K gs) (is : List Nat)
    (hC : ∀ e ∈ P.trace exec is, K.cond e.act e.last e.pre) {I : σ → Prop}
    (hI : ∀ s s', K.rely s s' → I s → I s') (hstart : I P.store) :
    ∀ e ∈ P.trace exec is, I e.pre ∧ I e.post :=
  HonorsEach.invariant (Φ := fun _ _ _ _ => True) h is hC hI hstart

/-- A run that meets the condition ends within what the clients rely on and within the budget. -/
theorem HonorsWith.run {gs : List Nat} {P : Pool σ Q U α} (h : P.HonorsWith exec K gs) (is : List Nat)
    (hC : ∀ e ∈ P.trace exec is, K.cond e.act e.last e.pre) :
    K.rely P.store (P.run exec is).store ∧ K.cost (P.run exec is).store ≤ K.budget := by
  constructor
  · exact run_rel K.refl K.trans is fun e he => (h.trace is hC e he).1
  · obtain ⟨gs', hbudget, -⟩ := HonorsEach.run (Φ := fun _ _ _ _ => True) h is hC
    omega

end Pool

end Fts3.Sql
