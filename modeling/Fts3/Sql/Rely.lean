import Fts3.Sql.Pool

/-!
# One client among the others

What a client does while the others move the store within a relation `R` between any two of its
statements, and what a pool of such clients does together.
-/

namespace Fts3.Sql

variable {σ Q U α β : Type}

namespace Proc

section

variable (exec : U → σ → Nat × σ) (R : σ → σ → Prop)

/-- From the store `s` on, the client returns in a store with `Φ`. -/
def Ensures (Φ : σ → Prop) : Proc σ Q U α → σ → Prop
  | .ret _, s => Φ s
  | .select _ k, s => ∀ s', R s s' → (k s').Ensures Φ s'
  | .update u k, s => ∀ s', R s s' → (k (exec u s').1).Ensures Φ (exec u s').2
  | .tx _ k, s => ∀ s', R s s' → k.Ensures Φ s'

/-- From the store `s` on, every `UPDATE` of the client keeps `G`, a relation between the stores before and
after it and the rest of the client, as long as its statements meet `C`, a condition on the store when the
previous statement ended and the store when the statement is executed. -/
def Keeps (C : Act Q U → σ → σ → Prop) (G : σ → σ → Proc σ Q U α → Prop) : Proc σ Q U α → σ → Prop
  | .ret _, _ => True
  | .select q k, s => ∀ s', R s s' → C (.select q) s s' → (k s').Keeps C G s'
  | .update u k, s => ∀ s', R s s' → C (.update u) s s' →
      G s' (exec u s').2 (k (exec u s').1) ∧ (k (exec u s').1).Keeps C G (exec u s').2
  | .tx t k, s => ∀ s', R s s' → C (.tx t) s s' → k.Keeps C G s'

end

variable {exec : U → σ → Nat × σ} {R : σ → σ → Prop}

section ensures

variable {Φ A : σ → Prop} {P : U → Prop}

theorem Ensures.bind {p : Proc σ Q U α} {f : α → Proc σ Q U β} (hp : p.Issues P)
    (hexec : ∀ u s, P u → R s (exec u s).2) (hA : ∀ s s', R s s' → A s → A s')
    (hf : ∀ a s, A s → (f a).Ensures exec R Φ s) {s : σ} (hs : A s) : (p.bind f).Ensures exec R Φ s := by
  induction p generalizing s with
  | ret a => exact hf a s hs
  | select q k ih => exact fun s' hR => ih s' (hp s') (hA s s' hR hs)
  | update u k ih => exact fun s' hR => ih _ (hp.2 _) (hA s' _ (hexec u s' hp.1) (hA s s' hR hs))
  | tx t k ih => exact fun s' hR => ih hp (hA s s' hR hs)

theorem Issues.ensures {p : Proc σ Q U α} (hp : p.Issues P) (hexec : ∀ u s, P u → R s (exec u s).2)
    (hΦ : ∀ s s', R s s' → Φ s → Φ s') {s : σ} (hs : Φ s) : p.Ensures exec R Φ s := by
  have hret : ∀ a s, Φ s → (Proc.ret a : Proc σ Q U α).Ensures exec R Φ s := fun _ _ h => h
  rw [← p.bind_ret]
  exact Ensures.bind hp hexec hΦ hret hs

theorem Ensures.next {p p' : Proc σ Q U α} {s s' s'' : σ} {a : Act Q U} {n : Nat} (hp : p.Ensures exec R Φ s)
    (hR : R s s') (h : p.next? exec s' = some (a, n, s'', p')) : p'.Ensures exec R Φ s'' := by
  rcases next?_cases h with ⟨q, k, rfl, -, rfl, rfl⟩ | ⟨u, k, rfl, -, -, rfl, rfl⟩ | ⟨t, rfl, -, rfl⟩
  · exact hp _ hR
  · exact hp _ hR
  · exact hp _ hR

end ensures

section keeps

variable {C : Act Q U → σ → σ → Prop} {P : U → Prop} {I : σ → Prop}

theorem Issues.keeps {p : Proc σ Q U α} {G : σ → σ → Proc σ Q U α → Prop} (hp : p.Issues P)
    (hG : ∀ u s p', P u → G s (exec u s).2 p') (s : σ) : p.Keeps exec R C G s := by
  induction p generalizing s with
  | ret a => trivial
  | select q k ih => exact fun s' _ _ => ih s' (hp s') s'
  | update u k ih => exact fun s' _ _ => ⟨hG u s' _ hp.1, ih _ (hp.2 _) _⟩
  | tx t k ih => exact fun s' _ _ => ih hp s'

/-- After a prefix whose `UPDATE`s keep `G`, the rest starts in a store with the stable property `I`. -/
theorem Issues.keeps_bind {p : Proc σ Q U α} {f : α → Proc σ Q U β} {G : σ → σ → Proc σ Q U β → Prop}
    (hp : p.Issues P) (hexec : ∀ u s, P u → R s (exec u s).2) (hI : ∀ s s', R s s' → I s → I s')
    (hG : ∀ u s (p' : Proc σ Q U α), P u → p'.Issues P → I s → G s (exec u s).2 (p'.bind f))
    (hf : ∀ a s, I s → (f a).Keeps exec R C G s) {s : σ} (hs : I s) : (p.bind f).Keeps exec R C G s := by
  induction p generalizing s with
  | ret a => exact hf a s hs
  | select q k ih => exact fun s' hR _ => ih s' (hp s') (hI s s' hR hs)
  | update u k ih =>
      intro s' hR _
      have hs' : I s' := hI s s' hR hs
      exact ⟨hG u s' _ hp.1 (hp.2 _) hs', ih _ (hp.2 _) (hI s' _ (hexec u s' hp.1) hs')⟩
  | tx t k ih => exact fun s' hR _ => ih hp (hI s s' hR hs)

theorem Keeps.next {G : σ → σ → Proc σ Q U α → Prop} {p p' : Proc σ Q U α} {s s' s'' : σ} {a : Act Q U}
    {n : Nat} (hp : p.Keeps exec R C G s) (hR : R s s') (hC : C a s s')
    (h : p.next? exec s' = some (a, n, s'', p')) :
    p'.Keeps exec R C G s'' ∧ (s'' = s' ∨ G s' s'' p') := by
  rcases next?_cases h with ⟨q, k, rfl, rfl, rfl, rfl⟩ | ⟨u, k, rfl, rfl, -, rfl, rfl⟩ | ⟨t, rfl, rfl, rfl⟩
  · exact ⟨hp _ hR hC, .inl rfl⟩
  · obtain ⟨hG, hp'⟩ := hp _ hR hC
    exact ⟨hp', .inr hG⟩
  · exact ⟨hp _ hR hC, .inl rfl⟩

end keeps

end Proc

namespace Pool

variable {exec : U → σ → Nat × σ} {R : σ → σ → Prop} {C : Act Q U → σ → σ → Prop}

/-- Every client keeps `G` from its last statement on, and the others have moved within `R` since. -/
def Keeps (exec : U → σ → Nat × σ) (R : σ → σ → Prop) (C : Act Q U → σ → σ → Prop)
    (G : σ → σ → Proc σ Q U α → Prop) (P : Pool σ Q U α) : Prop :=
  ∀ th ∈ P.threads, R th.last P.store ∧ th.proc.Keeps exec R C G th.last

theorem keeps_start {G : σ → σ → Proc σ Q U α → Prop} {s : σ} {ps : List (Proc σ Q U α)} (hrefl : ∀ s, R s s)
    (h : ∀ p ∈ ps, p.Keeps exec R C G s) : (Pool.start s ps).Keeps exec R C G := by
  intro th hth
  obtain ⟨p, hp, rfl⟩ := List.mem_map.mp hth
  exact ⟨hrefl s, h p hp⟩

section

variable (hrefl : ∀ s, R s s) (htrans : ∀ {s₁ s₂ s₃}, R s₁ s₂ → R s₂ s₃ → R s₁ s₃)

include hrefl htrans

theorem Keeps.step {G : σ → σ → Proc σ Q U α → Prop} {P P' : Pool σ Q U α} {i : Nat} {e : Event σ Q U}
    (h : P.Keeps exec R C G) (hs : P.step exec i = some (e, P')) (hR : R e.pre e.post)
    (hC : C e.act e.last e.pre) :
    P'.Keeps exec R C G ∧ (e.post = e.pre ∨ ∃ p, P'.threads[i]? = some ⟨p, e.post⟩ ∧ G e.pre e.post p) := by
  obtain ⟨th, a, n, s, p, hth, hn, rfl, rfl⟩ := step_eq_some hs
  obtain ⟨hlast, hkeeps⟩ := h th (List.mem_of_getElem? hth)
  obtain ⟨hp, hG⟩ := hkeeps.next hlast hC hn
  refine ⟨?_, hG.imp_right fun hG => ⟨p, ?_, hG⟩⟩
  · intro th' hth'
    rcases List.mem_or_eq_of_mem_set hth' with hmem | rfl
    · obtain ⟨hlast', hkeeps'⟩ := h th' hmem
      exact ⟨htrans hlast' hR, hkeeps'⟩
    · exact ⟨hrefl s, hp⟩
  · simp [List.getElem?_set_self (List.getElem?_eq_some_iff.mp hth).1]

theorem Keeps.trace {G : σ → σ → Prop} {P : Pool σ Q U α} (h : P.Keeps exec R C fun s s' _ => G s s')
    (is : List Nat) (hR : ∀ e ∈ P.trace exec is, R e.pre e.post)
    (hC : ∀ e ∈ P.trace exec is, C e.act e.last e.pre) :
    ∀ e ∈ P.trace exec is, e.post = e.pre ∨ G e.pre e.post := by
  induction is generalizing P with
  | nil => simp [Pool.trace]
  | cons i is ih =>
      simp only [Pool.trace] at hR hC ⊢
      cases hs : P.step exec i with
      | none =>
          rw [hs] at hR hC
          exact ih h hR hC
      | some r =>
          rw [hs] at hR hC
          simp only [List.mem_cons, forall_eq_or_imp] at hR hC ⊢
          obtain ⟨h', hG⟩ := h.step hrefl htrans hs hR.1 hC.1
          refine ⟨?_, ih h' hR.2 hC.2⟩
          rcases hG with heq | ⟨_, _, hG⟩
          · exact .inl heq
          · exact .inr hG

variable {A Φ : σ → Prop}

/-- Once `A` holds, `Φ` does or some client is on its way to `Φ`. -/
def Committed (exec : U → σ → Nat × σ) (R : σ → σ → Prop) (A Φ : σ → Prop) (P : Pool σ Q U α) : Prop :=
  A P.store → Φ P.store ∨
    ∃ (i : Nat) (th : Thread σ Q U α), P.threads[i]? = some th ∧ R th.last P.store ∧
      th.proc.Ensures exec R Φ th.last

theorem Committed.step (hΦ : ∀ s s', R s s' → Φ s → Φ s') {P P' : Pool σ Q U α} {i : Nat} {e : Event σ Q U}
    (hkeeps : P.Keeps exec R C fun s s' p => ¬A s → A s' → p.Ensures exec R Φ s')
    (h : P.Committed exec R A Φ) (hs : P.step exec i = some (e, P')) (hR : R e.pre e.post)
    (hC : C e.act e.last e.pre) : P'.Committed exec R A Φ := by
  obtain ⟨-, hG⟩ := hkeeps.step hrefl htrans hs hR hC
  obtain ⟨th, a, n, s, p, hth, hn, rfl, rfl⟩ := step_eq_some hs
  have hself : (P.threads.set i ⟨p, s⟩)[i]? = some ⟨p, s⟩ := by
    simp [List.getElem?_set_self (List.getElem?_eq_some_iff.mp hth).1]
  intro hA
  by_cases hA₀ : A P.store
  · rcases h hA₀ with h | ⟨k, th', hth', hlast, hens⟩
    · exact .inl (hΦ _ _ hR h)
    · by_cases hki : i = k
      · subst hki
        obtain rfl : th = th' := Option.some.inj (hth.symm.trans hth')
        exact .inr ⟨i, ⟨p, s⟩, hself, hrefl s, hens.next hlast hn⟩
      · exact .inr ⟨k, th', by simpa only [List.getElem?_set_ne hki] using hth', htrans hlast hR, hens⟩
  · -- this turn has made `A` true
    rcases hG with heq | ⟨p', hp', hens⟩
    · have heq : s = P.store := heq
      exact absurd (heq ▸ hA) hA₀
    · have hp' : (P.threads.set i ⟨p, s⟩)[i]? = some ⟨p', s⟩ := hp'
      exact .inr ⟨i, ⟨p', s⟩, hp', hrefl s, hens hA₀ hA⟩

/-- If every client that makes `A` true goes on to `Φ`, then a run within `R` and `C` in which all clients
have returned ends with `Φ` when it ends with `A`. -/
theorem Keeps.completes (hΦ : ∀ s s', R s s' → Φ s → Φ s') {P : Pool σ Q U α}
    (hkeeps : P.Keeps exec R C fun s s' p => ¬A s → A s' → p.Ensures exec R Φ s')
    (hstart : P.Committed exec R A Φ) (is : List Nat) (hR : ∀ e ∈ P.trace exec is, R e.pre e.post)
    (hC : ∀ e ∈ P.trace exec is, C e.act e.last e.pre) (hdone : (P.run exec is).Done)
    (hA : A (P.run exec is).store) : Φ (P.run exec is).store := by
  have hcommitted : (P.run exec is).Keeps exec R C (fun s s' p => ¬A s → A s' → p.Ensures exec R Φ s') ∧
      (P.run exec is).Committed exec R A Φ := by
    refine run_invariant (C := fun e => R e.pre e.post ∧ C e.act e.last e.pre)
      (I := fun P => P.Keeps exec R C (fun s s' p => ¬A s → A s' → p.Ensures exec R Φ s') ∧
        P.Committed exec R A Φ) ?_ is (fun e he => ⟨hR e he, hC e he⟩) ⟨hkeeps, hstart⟩
    intro P P' i e hs he hI
    exact ⟨(hI.1.step hrefl htrans hs he.1 he.2).1, Committed.step hrefl htrans hΦ hI.1 hI.2 hs he.1 he.2⟩
  rcases hcommitted.2 hA with h | ⟨i, ⟨p, last⟩, hth, hlast, hens⟩
  · exact h
  · have hret := hdone _ (List.mem_of_getElem? hth)
    cases p with
    | ret a => exact hΦ _ _ hlast hens
    | _ => cases hret

end

end Pool

end Fts3.Sql
