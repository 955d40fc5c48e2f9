import Fts3.Sql.Pool

/-!
# Polling clients

A poll selects the rows that are due, marks each of them and returns them; a client polls in rounds, while others write
the same store. The client is followed with a phase of the store that the others do not end.
-/

namespace Fts3.Sql

variable {σ Q U G α β : Type}

namespace Proc

/-- Started in a store in the phase `g`, the client returns with `Φ` and a last phase: its own `UPDATE`s move the store from
one phase to the next. -/
def Tracks (exec : U → σ → Nat × σ) (I : G → σ → Prop) (Φ : α → G → Prop) : Proc σ Q U α → G → Prop
  | .ret a, g => Φ a g
  | .select _ k, g => ∀ s, I g s → (k s).Tracks exec I Φ g
  | .update u k, g => ∃ g', (∀ s, I g s → I g' (exec u s).2) ∧ ∀ n, (k n).Tracks exec I Φ g'
  | .tx _ k, g => k.Tracks exec I Φ g

variable {exec : U → σ → Nat × σ} {I : G → σ → Prop} {Φ : α → G → Prop}

theorem Tracks.bind {Ψ : β → G → Prop} {p : Proc σ Q U α} {f : α → Proc σ Q U β} {g : G} (hp : p.Tracks exec I Φ g)
    (hf : ∀ a g, Φ a g → (f a).Tracks exec I Ψ g) : (p.bind f).Tracks exec I Ψ g := by
  induction p generalizing g with
  | ret a => exact hf a g hp
  | select q k ih => exact fun s hs => ih s (hp s hs)
  | update u k ih =>
      obtain ⟨g', hu, hk⟩ := hp
      exact ⟨g', hu, fun n => ih n (hk n)⟩
  | tx t k ih => exact ih hp

theorem Tracks.next {p p' : Proc σ Q U α} {g : G} {s s' : σ} {a : Act Q U} {n : Nat} (hp : p.Tracks exec I Φ g)
    (hs : I g s) (h : p.next? exec s = some (a, n, s', p')) : ∃ g', I g' s' ∧ p'.Tracks exec I Φ g' := by
  rcases next?_cases h with ⟨q, k, rfl, -, rfl, rfl⟩ | ⟨u, k, rfl, -, -, rfl, rfl⟩ | ⟨t, rfl, -, rfl⟩
  · exact ⟨g, hs, hp s' hs⟩
  · obtain ⟨g', hu, hk⟩ := hp
    exact ⟨g', hu s hs, hk _⟩
  · exact ⟨g, hs, hp⟩

/-- What the client returns among others that keep every phase. -/
theorem Tracks.result {P : Pool σ Q U α} {i : Nat} {th : Thread σ Q U α} {g : G} (hp : th.proc.Tracks exec I Φ g)
    (hth : P.threads[i]? = some th) (hs : I g P.store) (is : List Nat)
    (hother : ∀ e ∈ P.trace exec is, e.caller ≠ i → ∀ g, I g e.pre → I g e.post) {a : α}
    (ha : (P.run exec is).result? i = some a) : ∃ g, Φ a g := by
  suffices hrun : ∃ th g, (P.run exec is).threads[i]? = some th ∧ I g (P.run exec is).store ∧
      th.proc.Tracks exec I Φ g by
    obtain ⟨th, g, hth, -, hp⟩ := hrun
    obtain ⟨s, hret⟩ := Pool.result?_eq_some ha
    rw [hret] at hth
    cases hth
    exact ⟨g, hp⟩
  refine Pool.run_invariant (I := fun P : Pool σ Q U α => ∃ th g, P.threads[i]? = some th ∧ I g P.store ∧
    th.proc.Tracks exec I Φ g) ?_ is hother ⟨th, g, hth, hs, hp⟩
  rintro P P' k e hstep he ⟨th, g, hth, hs, hp⟩
  obtain ⟨hpre, hpost⟩ := Pool.step_store hstep
  obtain ⟨th', act, n, s, p, hth', hn, rfl, rfl⟩ := Pool.step_eq_some hstep
  by_cases hki : k = i
  · subst hki
    obtain rfl : th = th' := Option.some.inj (hth.symm.trans hth')
    obtain ⟨g', hs', hp'⟩ := hp.next hs hn
    refine ⟨⟨p, s⟩, g', ?_, hs', hp'⟩
    simp [List.getElem?_set_self (List.getElem?_eq_some_iff.mp hth).1]
  · refine ⟨th, g, ?_, he hki g hs, hp⟩
    simp only [List.getElem?_set_ne hki]
    exact hth

end Proc

/-- A client that gets enough turns returns. -/
theorem Pool.returns (exec : U → σ → Nat × σ) {P : Pool σ Q U α} {i : Nat} {th : Thread σ Q U α}
    (hth : P.threads[i]? = some th) : ∃ n a, (P.run exec (List.replicate n i)).result? i = some a := by
  obtain ⟨p, last⟩ := th
  induction p generalizing P last with
  | ret a => exact ⟨0, a, by simp [Pool.run, Pool.result?, hth]⟩
  | select q k ih =>
      obtain ⟨n, a, h⟩ := @ih P.store ⟨P.store, P.threads.set i ⟨k P.store, P.store⟩⟩ P.store
        (by simp [List.getElem?_set_self (List.getElem?_eq_some_iff.mp hth).1])
      exact ⟨n + 1, a, by simpa [List.replicate_succ, Pool.run, Pool.step, hth, Proc.next?] using h⟩
  | update u k ih =>
      obtain ⟨n, a, h⟩ := @ih (exec u P.store).1
        ⟨(exec u P.store).2, P.threads.set i ⟨k (exec u P.store).1, (exec u P.store).2⟩⟩ (exec u P.store).2
        (by simp [List.getElem?_set_self (List.getElem?_eq_some_iff.mp hth).1])
      exact ⟨n + 1, a, by simpa [List.replicate_succ, Pool.run, Pool.step, hth, Proc.next?] using h⟩
  | tx t k ih =>
      obtain ⟨n, a, h⟩ := @ih ⟨P.store, P.threads.set i ⟨k, P.store⟩⟩ P.store
        (by simp [List.getElem?_set_self (List.getElem?_eq_some_iff.mp hth).1])
      exact ⟨n + 1, a, by simpa [List.replicate_succ, Pool.run, Pool.step, hth, Proc.next?] using h⟩

/-- A client that gets no turn stays where it is. -/
theorem Pool.threads_run_of_not_mem {exec : U → σ → Nat × σ} {P : Pool σ Q U α} {i : Nat} {is : List Nat} (h : i ∉ is) :
    (P.run exec is).threads[i]? = P.threads[i]? := by
  induction is generalizing P with
  | nil => rfl
  | cons k is ih =>
      rw [List.mem_cons, not_or] at h
      simp only [Pool.run]
      cases hs : P.step exec k with
      | none => exact ih h.2
      | some next =>
          obtain ⟨th, a, n, s, p, -, -, -, hP'⟩ := Pool.step_eq_some hs
          rw [ih h.2, hP', List.getElem?_set_ne (Ne.symm h.1)]

/-! ## Polls -/

structure Poll (σ Q U ρ : Type) where
  query : Q
  read : σ → List ρ
  mark : ρ → U

namespace Poll

variable {ρ : Type} (c : Poll σ Q U ρ)

/-- One transaction for all the marks, after the `SELECT`. -/
def round : Proc σ Q U (List ρ) :=
  .select c.query fun s => .tx .begin (((c.read s).forM fun r => (Proc.execute (c.mark r)).bind fun _ => .ret ()).bind
    fun _ => .tx .commit (.ret (c.read s)))

def rounds : Nat → Proc σ Q U (List (List ρ))
  | 0 => .ret []
  | n + 1 => c.round.bind fun first => (rounds n).bind fun rest => .ret (first :: rest)

/-- The row that is looked for is returned by the first round, once and with `A`, and not by a later one. -/
def Once (it : ρ → Bool) (A : ρ → Prop) (rounds : List (List ρ)) : Prop :=
  ∃ first rest, rounds = first :: rest ∧ (∃ r, first.filter it = [r] ∧ A r) ∧ ∀ rows ∈ rest, rows.filter it = []

/-- A row that is due in the phase `true` and, once it is marked, not any more. -/
structure Watches (exec : U → σ → Nat × σ) (it : ρ → Bool) (A : ρ → Prop) (I : Bool → σ → Prop) : Prop where
  due : ∀ s, I true s → ∃ r, (c.read s).filter it = [r] ∧ A r
  gone : ∀ s, I false s → (c.read s).filter it = []
  mark : ∀ r s, it r = true → I true s → I false (exec (c.mark r) s).2
  other : ∀ r s g, it r = false → I g s → I g (exec (c.mark r) s).2

namespace Watches

variable {c} {exec : U → σ → Nat × σ} {it : ρ → Bool} {A : ρ → Prop} {I : Bool → σ → Prop} (h : c.Watches exec it A I)

include h

/-- The marks of rows that are not looked for. -/
theorem marks_other {rows : List ρ} (hrows : rows.filter it = []) (g : Bool) :
    (rows.forM fun r => ((Proc.execute (c.mark r)).bind fun _ => .ret () : Proc σ Q U PUnit)).Tracks exec I
      (fun _ g' => g' = g) g := by
  induction rows with
  | nil => rfl
  | cons r rows ih =>
      rw [List.filter_eq_nil_iff] at hrows ih
      refine Proc.Tracks.bind (Φ := fun _ g' => g' = g) ?_ fun _ g' hg => ?_
      · exact ⟨g, fun s => h.other r s g (Bool.eq_false_iff.mpr (hrows r (by simp))), fun _ => rfl⟩
      · subst hg
        exact ih fun r' hr' => hrows r' (by simp [hr'])

theorem marks_due {rows : List ρ} {r : ρ} (hrows : rows.filter it = [r]) :
    (rows.forM fun r => ((Proc.execute (c.mark r)).bind fun _ => .ret () : Proc σ Q U PUnit)).Tracks exec I
      (fun _ g' => g' = false) true := by
  induction rows with
  | nil => cases hrows
  | cons r' rows ih =>
      cases hit : it r' with
      | true =>
          rw [List.filter_cons_of_pos hit, List.cons.injEq] at hrows
          refine Proc.Tracks.bind (Φ := fun _ g' => g' = false) ?_ fun _ g' hg => ?_
          · exact ⟨false, fun s => h.mark r' s hit, fun _ => rfl⟩
          · subst hg
            exact h.marks_other hrows.2 false
      | false =>
          rw [List.filter_cons_of_neg (by simp [hit])] at hrows
          refine Proc.Tracks.bind (Φ := fun _ g' => g' = true) ?_ fun _ g' hg => ?_
          · exact ⟨true, fun s => h.other r' s true hit, fun _ => rfl⟩
          · subst hg
            exact ih hrows

theorem round_due : c.round.Tracks exec I (fun rows g => g = false ∧ ∃ r, rows.filter it = [r] ∧ A r) true := by
  intro s hs
  obtain ⟨r, hr, hA⟩ := h.due s hs
  exact (h.marks_due hr).bind fun _ g hg => ⟨hg, r, hr, hA⟩

theorem round_gone : c.round.Tracks exec I (fun rows g => g = false ∧ rows.filter it = []) false := by
  intro s hs
  exact (h.marks_other (h.gone s hs) false).bind fun _ g hg => ⟨hg, h.gone s hs⟩

theorem rounds_gone (n : Nat) :
    (c.rounds n).Tracks exec I (fun rounds g => g = false ∧ ∀ rows ∈ rounds, rows.filter it = []) false := by
  induction n with
  | zero => exact ⟨rfl, fun _ hrows => absurd hrows List.not_mem_nil⟩
  | succ n ih =>
      refine h.round_gone.bind ?_
      rintro first g ⟨rfl, hfirst⟩
      refine ih.bind ?_
      rintro rest g ⟨rfl, hrest⟩
      refine ⟨rfl, fun rows hrows => ?_⟩
      rcases List.mem_cons.mp hrows with rfl | hrows
      · exact hfirst
      · exact hrest rows hrows

theorem rounds_due (n : Nat) : (c.rounds (n + 1)).Tracks exec I (fun rounds _ => Once it A rounds) true := by
  refine h.round_due.bind ?_
  rintro first g ⟨rfl, hfirst⟩
  refine (h.rounds_gone n).bind ?_
  rintro rest g ⟨-, hrest⟩
  exact ⟨first, rest, rfl, hfirst, hrest⟩

end Watches

theorem Once.mono {it : ρ → Bool} {A B : ρ → Prop} {rounds : List (List ρ)} (h : Once it A rounds)
    (hAB : ∀ r, A r → B r) : Once it B rounds := by
  obtain ⟨first, rest, hrounds, ⟨r, hr, hA⟩, hrest⟩ := h
  exact ⟨first, rest, hrounds, ⟨r, hr, hAB r hA⟩, hrest⟩

theorem Once.mem {it : ρ → Bool} {A : ρ → Prop} {rounds : List (List ρ)} (h : Once it A rounds) :
    ∃ first ∈ rounds.head?, ∃ r ∈ first, A r := by
  obtain ⟨first, rest, rfl, ⟨r, hr, hA⟩, -⟩ := h
  have hmem : r ∈ first.filter it := by
    rw [hr]
    exact List.mem_singleton_self r
  exact ⟨first, rfl, r, (List.mem_filter.mp hmem).1, hA⟩

theorem not_once {it : ρ → Bool} {A : ρ → Prop} {rounds : List (List ρ)} (h : ∀ rows ∈ rounds, rows.filter it = []) :
    ¬Once it A rounds := by
  rintro ⟨first, rest, rfl, ⟨r, hr, -⟩, -⟩
  rw [h first (by simp)] at hr
  cases hr

end Poll

end Fts3.Sql
