import Fts3.Sql.Pool

/-!
# What a client remembers

A client may write something only because of what it has read, possibly many statements ago. Its memory is
folded over the answers to its queries, and a rule says what it may write with what it remembers.
-/

namespace Fts3.Sql

variable {σ Q U G α β : Type}

/-- `inv` is what is known of every store that a query can find. -/
structure Rule (σ Q U G : Type) where
  inv : σ → Prop
  see : Q → σ → G → G
  allow : U → G → Prop

namespace Proc

/-- With the memory `g` on, every write of the client is allowed, and it returns with `Φ`. -/
def Follows (K : Rule σ Q U G) (Φ : α → G → Prop) : Proc σ Q U α → G → Prop
  | .ret a, g => Φ a g
  | .select q k, g => ∀ s, K.inv s → (k s).Follows K Φ (K.see q s g)
  | .update u k, g => K.allow u g ∧ ∀ n, (k n).Follows K Φ g
  | .tx _ k, g => k.Follows K Φ g

/-- Every query of the client satisfies `N`. -/
def Asks (N : Q → Prop) : Proc σ Q U α → Prop
  | .ret _ => True
  | .select q k => N q ∧ ∀ s, (k s).Asks N
  | .update _ k => ∀ n, (k n).Asks N
  | .tx _ k => k.Asks N

/-- The results of the clients of a list, one after the other. -/
def collect {γ : Type} (f : γ → Proc σ Q U (List β)) : List γ → Proc σ Q U (List β)
  | [] => .ret []
  | x :: xs => (f x).bind fun ys => (collect f xs).bind fun zs => .ret (ys ++ zs)

theorem answer_collect {γ : Type} {exec : U → σ → Nat × σ} (f : γ → Proc σ Q U (List β)) (xs : List γ) (s : σ) :
    (collect f xs).answer exec s = xs.flatMap fun x => (f x).answer exec s := by
  induction xs with
  | nil => rfl
  | cons x xs ih => simp only [collect, answer_bind, answer_ret, List.flatMap_cons, ih]

theorem issues_collect {γ : Type} {P : U → Prop} {f : γ → Proc σ Q U (List β)} {xs : List γ}
    (hf : ∀ x ∈ xs, (f x).Issues P) : (collect f xs).Issues P := by
  induction xs with
  | nil => trivial
  | cons x xs ih =>
      refine (hf x (by simp)).bind fun ys => ?_
      exact (ih fun y hy => hf y (by simp [hy])).bind fun zs => trivial

/-- The same, until one of them throws, which is `none`. -/
def tryCollect {γ : Type} (f : γ → Proc σ Q U (Option (List β))) : List γ → Proc σ Q U (Option (List β))
  | [] => .ret (some [])
  | x :: xs => (f x).bind fun
      | none => .ret none
      | some ys => (tryCollect f xs).bind fun zs => .ret (zs.map (ys ++ ·))

theorem answer_tryCollect {γ : Type} {exec : U → σ → Nat × σ} (f : γ → Proc σ Q U (Option (List β))) (xs : List γ)
    (s : σ) : (tryCollect f xs).answer exec s =
      if ∀ x ∈ xs, ((f x).answer exec s).isSome then some (xs.flatMap fun x => ((f x).answer exec s).getD []) else none := by
  induction xs with
  | nil => simp [tryCollect]
  | cons x xs ih =>
      rw [tryCollect, answer_bind]
      cases hx : (f x).answer exec s with
      | none => simp [hx]
      | some ys =>
          simp only [answer_bind, answer_ret, ih, List.forall_mem_cons, hx, Option.isSome_some, true_and, List.flatMap_cons,
            Option.getD_some]
          split
          · rfl
          · rfl

theorem issues_tryCollect {γ : Type} {P : U → Prop} {f : γ → Proc σ Q U (Option (List β))} {xs : List γ}
    (hf : ∀ x ∈ xs, (f x).Issues P) : (tryCollect f xs).Issues P := by
  induction xs with
  | nil => trivial
  | cons x xs ih =>
      refine (hf x (by simp)).bind fun ys => ?_
      cases ys with
      | none => trivial
      | some ys => exact (ih fun y hy => hf y (by simp [hy])).bind fun zs => trivial

section asks

variable {N : Q → Prop}

@[simp] theorem asks_ret (a : α) : (Proc.ret a : Proc σ Q U α).Asks N ↔ True := Iff.rfl

@[simp] theorem asks_select (q : Q) (k : σ → Proc σ Q U α) :
    (Proc.select q k).Asks N ↔ N q ∧ ∀ s, (k s).Asks N := Iff.rfl

@[simp] theorem asks_update (u : U) (k : Nat → Proc σ Q U α) :
    (Proc.update u k).Asks N ↔ ∀ n, (k n).Asks N := Iff.rfl

@[simp] theorem asks_tx (t : Tx) (k : Proc σ Q U α) : (Proc.tx t k).Asks N ↔ k.Asks N := Iff.rfl

@[simp] theorem asks_ite {c : Prop} [Decidable c] (p q : Proc σ Q U α) :
    (if c then p else q).Asks N ↔ (c → p.Asks N) ∧ (¬c → q.Asks N) := by
  by_cases h : c <;> simp [h]

theorem Asks.bind {p : Proc σ Q U α} {f : α → Proc σ Q U β} (hp : p.Asks N) (hf : ∀ a, (f a).Asks N) :
    (p.bind f).Asks N := by
  induction p with
  | ret a => exact hf a
  | select q k ih => exact ⟨hp.1, fun s => ih s (hp.2 s)⟩
  | update u k ih => exact fun n => ih n (hp n)
  | tx t k ih => exact ih hp

theorem Asks.mono {N' : Q → Prop} {p : Proc σ Q U α} (hp : p.Asks N) (h : ∀ q, N q → N' q) : p.Asks N' := by
  induction p with
  | ret a => trivial
  | select q k ih => exact ⟨h q hp.1, fun s => ih s (hp.2 s)⟩
  | update u k ih => exact fun n => ih n (hp n)
  | tx t k ih => exact ih hp

end asks

section follows

variable {K : Rule σ Q U G} {Φ : α → G → Prop} {g : G}

theorem Follows.bind {p : Proc σ Q U α} {f : α → Proc σ Q U β} {Ψ : β → G → Prop} (hp : p.Follows K Φ g)
    (hf : ∀ a g, Φ a g → (f a).Follows K Ψ g) : (p.bind f).Follows K Ψ g := by
  induction p generalizing g with
  | ret a => exact hf a g hp
  | select q k ih => exact fun s hs => ih s (hp s hs)
  | update u k ih => exact ⟨hp.1, fun n => ih n (hp.2 n)⟩
  | tx t k ih => exact ih hp

theorem Follows.mono {p : Proc σ Q U α} {Ψ : α → G → Prop} (hp : p.Follows K Φ g) (h : ∀ a g, Φ a g → Ψ a g) :
    p.Follows K Ψ g := by
  rw [← p.bind_ret]
  exact hp.bind h

theorem follows_ite {c : Prop} [Decidable c] {p q : Proc σ Q U α} (hp : c → p.Follows K Φ g)
    (hq : ¬c → q.Follows K Φ g) : (if c then p else q).Follows K Φ g := by
  split
  · rename_i h
    exact hp h
  · rename_i h
    exact hq h

/-- A client whose writes are allowed with any memory. -/
theorem Issues.follows {P : U → Prop} {p : Proc σ Q U α} (hp : p.Issues P) (h : ∀ u, P u → ∀ g, K.allow u g) :
    p.Follows K (fun _ _ => True) g := by
  induction p generalizing g with
  | ret a => trivial
  | select q k ih => exact fun s _ => ih s (hp s)
  | update u k ih => exact ⟨h u hp.1 g, fun n => ih n (hp.2 n)⟩
  | tx t k ih => exact ih hp

/-- A client whose queries leave the memory alone, while that allows all its writes. -/
theorem Asks.follows {P : U → Prop} {p : Proc σ Q U α} (hp : p.Asks fun q => ∀ s g, K.see q s g = g) (hissues : p.Issues P)
    (h : ∀ u, P u → K.allow u g) : p.Follows K (fun _ g' => g' = g) g := by
  induction p with
  | ret a => rfl
  | select q k ih =>
      intro s hs
      rw [hp.1 s g]
      exact ih s (hp.2 s) (hissues s)
  | update u k ih => exact ⟨h u hissues.1, fun n => ih n (hp n) (hissues.2 n)⟩
  | tx t k ih => exact ih hp hissues

theorem follows_collect {γ : Type} {R : β → Prop} {f : γ → Proc σ Q U (List β)} {xs : List γ}
    (hf : ∀ x ∈ xs, ∀ g, (f x).Follows K (fun ys _ => ∀ y ∈ ys, R y) g) :
    (collect f xs).Follows K (fun ys _ => ∀ y ∈ ys, R y) g := by
  induction xs generalizing g with
  | nil => simp [collect, Follows]
  | cons x xs ih =>
      refine (hf x (by simp) g).bind fun ys g hys => ?_
      refine (ih fun y hy => hf y (by simp [hy])).bind fun zs g hzs => ?_
      intro y hy
      rcases List.mem_append.mp hy with h | h
      · exact hys y h
      · exact hzs y h

theorem follows_tryCollect {γ : Type} {R : β → Prop} {f : γ → Proc σ Q U (Option (List β))} {xs : List γ}
    (hf : ∀ x ∈ xs, ∀ g, (f x).Follows K (fun ys _ => ∀ y ∈ ys.getD [], R y) g) :
    (tryCollect f xs).Follows K (fun ys _ => ∀ y ∈ ys.getD [], R y) g := by
  induction xs generalizing g with
  | nil => simp [tryCollect, Follows]
  | cons x xs ih =>
      refine (hf x (by simp) g).bind fun ys g hys => ?_
      cases ys with
      | none => simp [Follows]
      | some ys =>
          refine (ih fun y hy => hf y (by simp [hy])).bind fun zs g hzs => ?_
          cases zs with
          | none => simp [Follows]
          | some zs =>
              intro y hy
              rcases List.mem_append.mp hy with h | h
              · exact hys y h
              · exact hzs y h

theorem Follows.next {exec : U → σ → Nat × σ} {p p' : Proc σ Q U α} {s s' : σ} {a : Act Q U} {n : Nat}
    (hp : p.Follows K Φ g) (hs : K.inv s) (h : p.next? exec s = some (a, n, s', p')) :
    (∀ u, a = .update u → K.allow u g) ∧
      p'.Follows K Φ (match a with | .select q => K.see q s g | _ => g) := by
  rcases next?_cases h with ⟨q, k, rfl, rfl, -, rfl⟩ | ⟨u, k, rfl, rfl, -, -, rfl⟩ | ⟨t, rfl, rfl, -⟩
  · exact ⟨by simp, hp s hs⟩
  · refine ⟨?_, hp.2 _⟩
    intro u' hu'
    cases hu'
    exact hp.1
  · exact ⟨by simp, hp⟩

/-- What a client returns that finds only stores with the invariant. -/
theorem Follows.amid {exec : U → σ → Nat × σ} {p : Proc σ Q U α} (hp : p.Follows K Φ g) {seen : Nat → σ}
    (hseen : ∀ n, K.inv (seen n)) : ∃ g', Φ (p.amid exec seen) g' := by
  induction p generalizing g seen with
  | ret a => exact ⟨g, hp⟩
  | select q k ih => exact ih _ (hp _ (hseen 0)) fun n => hseen (n + 1)
  | update u k ih => exact ih _ (hp.2 _) fun n => hseen (n + 1)
  | tx t k ih => exact ih hp fun n => hseen (n + 1)

/-- What it returns while the store stays as it is. -/
theorem Follows.answer {exec : U → σ → Nat × σ} {p : Proc σ Q U α} (hp : p.Follows K Φ g) {s : σ} (hs : K.inv s) :
    ∃ g', Φ (p.answer exec s) g' :=
  hp.amid fun _ => hs

end follows

end Proc

namespace Event

/-- What client `i` remembers after the events, the last one first. -/
def memory (see : Q → σ → G → G) (g : G) (i : Nat) : List (Event σ Q U) → G
  | [] => g
  | e :: es =>
      match e.act with
      | .select q => if e.caller = i then see q e.pre (memory see g i es) else memory see g i es
      | _ => memory see g i es

/-- `C` holds of every event and the events before it, the last one first. -/
def Along (C : List (Event σ Q U) → Event σ Q U → Prop) : List (Event σ Q U) → List (Event σ Q U) → Prop
  | _, [] => True
  | es, e :: rest => C es e ∧ Along C (e :: es) rest

instance decidableAlong (C : List (Event σ Q U) → Event σ Q U → Prop) [∀ es e, Decidable (C es e)] :
    ∀ es rest, Decidable (Along C es rest)
  | _, [] => .isTrue trivial
  | es, e :: rest =>
      have := decidableAlong C (e :: es) rest
      inferInstanceAs (Decidable (C es e ∧ Along C (e :: es) rest))

/-- What two properties along a run say about each of its events. -/
theorem Along.forall {C D : List (Event σ Q U) → Event σ Q U → Prop} {E : Event σ Q U → Prop}
    (h : ∀ es e, C es e → D es e → E e) {es rest : List (Event σ Q U)} (hC : Along C es rest)
    (hD : Along D es rest) : ∀ e ∈ rest, E e := by
  induction rest generalizing es with
  | nil => simp
  | cons e rest ih =>
      simp only [List.mem_cons, forall_eq_or_imp]
      exact ⟨h es e hC.1 hD.1, ih hC.2 hD.2⟩

end Event

namespace Pool

variable {exec : U → σ → Nat × σ} {K : Rule σ Q U G} {g : G}

/-- Every client follows the rule with what it remembers of the events `es`. -/
def FollowsAfter (K : Rule σ Q U G) (g : G) (es : List (Event σ Q U)) (P : Pool σ Q U α) : Prop :=
  K.inv P.store ∧ ∀ (i : Nat) (th : Thread σ Q U α), P.threads[i]? = some th →
    th.proc.Follows K (fun _ _ => True) (Event.memory K.see g i es)

theorem followsAfter_start {s : σ} {ps : List (Proc σ Q U α)} (hs : K.inv s)
    (h : ∀ p ∈ ps, p.Follows K (fun _ _ => True) g) : (Pool.start s ps).FollowsAfter K g [] := by
  refine ⟨hs, ?_⟩
  intro i th hth
  obtain ⟨p, hp, rfl⟩ : ∃ p, ps[i]? = some p ∧ ⟨p, s⟩ = th := by simpa [Pool.start] using hth
  exact h p (List.mem_of_getElem? hp)

theorem FollowsAfter.step (hinv : ∀ u g s, K.allow u g → K.inv s → K.inv (exec u s).2) {es : List (Event σ Q U)}
    {P P' : Pool σ Q U α} {i : Nat} {e : Event σ Q U} (h : P.FollowsAfter K g es)
    (hs : P.step exec i = some (e, P')) :
    P'.FollowsAfter K g (e :: es) ∧ K.inv e.pre ∧
      ∀ u, e.act = .update u → K.allow u (Event.memory K.see g e.caller es) := by
  obtain ⟨th, a, n, s, p, hth, hn, rfl, rfl⟩ := step_eq_some hs
  obtain ⟨hstore, hthreads⟩ := h
  obtain ⟨hallow, hrest⟩ := (hthreads i th hth).next hstore hn
  refine ⟨⟨?_, ?_⟩, hstore, hallow⟩
  · rcases Proc.next?_cases hn with ⟨q, k, -, -, rfl, -⟩ | ⟨u, k, -, rfl, -, rfl, -⟩ | ⟨t, -, -, rfl⟩
    · exact hstore
    · exact hinv u _ _ (hallow u rfl) hstore
    · exact hstore
  · intro k th' hth'
    by_cases hki : k = i
    · subst hki
      have hself : (P.threads.set k ⟨p, s⟩)[k]? = some ⟨p, s⟩ := by
        simp [List.getElem?_set_self (List.getElem?_eq_some_iff.mp hth).1]
      obtain rfl : (⟨p, s⟩ : Thread σ Q U α) = th' := Option.some.inj (hself.symm.trans hth')
      cases a with
      | select q => simpa [Event.memory] using hrest
      | update u => simpa [Event.memory] using hrest
      | tx t => simpa [Event.memory] using hrest
    · have hki' : i ≠ k := fun h => hki h.symm
      simp only [List.getElem?_set_ne hki'] at hth'
      have hother := hthreads k th' hth'
      cases a with
      | select q => simpa [Event.memory, hki'] using hother
      | update u => simpa [Event.memory] using hother
      | tx t => simpa [Event.memory] using hother

/-- Along a run every write is allowed by what its caller remembers. -/
theorem FollowsAfter.along (hinv : ∀ u g s, K.allow u g → K.inv s → K.inv (exec u s).2) {es : List (Event σ Q U)}
    {P : Pool σ Q U α} (h : P.FollowsAfter K g es) (is : List Nat) :
    Event.Along (fun es e => e.Executes exec ∧ K.inv e.pre ∧
      ∀ u, e.act = .update u → K.allow u (Event.memory K.see g e.caller es)) es (P.trace exec is) := by
  induction is generalizing P es with
  | nil => trivial
  | cons i is ih =>
      simp only [Pool.trace]
      cases hs : P.step exec i with
      | none => exact ih h
      | some r =>
          obtain ⟨hnext, hallow⟩ := h.step hinv hs
          exact ⟨⟨step_act hs, hallow⟩, ih hnext⟩

/-- The invariant that the queries rely on stays. -/
theorem FollowsAfter.inv_run (hinv : ∀ u g s, K.allow u g → K.inv s → K.inv (exec u s).2) {es : List (Event σ Q U)}
    {P : Pool σ Q U α} (h : P.FollowsAfter K g es) (is : List Nat) : K.inv (P.run exec is).store := by
  have hlater : ∃ es, (P.run exec is).FollowsAfter K g es :=
    run_invariant (C := fun _ => True) (I := fun P => ∃ es, P.FollowsAfter K g es)
      (fun hs _ ⟨es, hes⟩ => ⟨_, (hes.step hinv hs).1⟩) is (fun _ _ => trivial) ⟨es, h⟩
  obtain ⟨_, hes⟩ := hlater
  exact hes.1

end Pool

end Fts3.Sql
