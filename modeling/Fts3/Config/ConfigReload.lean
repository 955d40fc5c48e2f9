import Fts3.Config.ServerConfig

/-!
# That the configuration can be reloaded

`qv` serves the threads that read and the one that reloads. As long as nothing throws, no wake-up is lost.
-/

namespace Fts3.Config

open Fts3.Machine

/-! ## The steps that a thread can take -/

/-- Between two calls, in `qv.wait` or at an end, a thread takes no step of its own. -/
def GetStatus.moves : GetStatus → Bool
  | asks | counted | found _ _ | released _ _ => true
  | _ => false

def MonitorStatus.moves : MonitorStatus → Bool
  | asks | writing | written => true
  | _ => false

def Enabled (s : ServerConfig) : Event → Prop
  | .call i _ => ∃ g, s.getters[i]? = some g ∧ g.status.canCall = true
  | .get i => ∃ g, s.getters[i]? = some g ∧ g.status.moves = true
  | .changed => s.monitor = .idle
  | .monitor _ => s.monitor.moves = true
  | .wakeGetter i => ∃ g, s.getters[i]? = some g ∧ g.status = .waiting
  | .wakeMonitor => s.monitor = .waiting

/-- A step of a thread that is inside a call or inside a reload. -/
def Event.goesOn : Event → Bool
  | get _ | monitor _ => true
  | _ => false

def Nothrow (s : ServerConfig) : Prop :=
  s.leaked = 0 ∧ s.monitor ≠ .stopped

variable {s : ServerConfig}

theorem GetStatus.waits_or_moves {status : GetStatus} (h : status.canCall = false) :
    status = waiting ∨ status.moves = true := by
  cases status <;> simp_all [canCall, moves]

theorem GetStatus.moves_of_inside {status : GetStatus} (h : status.inside = true) : status.moves = true := by
  cases status <;> simp_all [inside, moves]

theorem MonitorStatus.moves_of_holds {status : MonitorStatus} (h : status.holds = true) (hstopped : status ≠ stopped) :
    status.moves = true := by
  cases status <;> simp_all [holds, moves]

/-- Each thread that waits does so for one that can go on. -/
theorem Inv.progress (h : Inv s) (hnothrow : Nothrow s)
    (hbusy : s.monitor ≠ .idle ∨ ∃ g ∈ s.getters, g.status.canCall = false) :
    ∃ e, e.goesOn = true ∧ Enabled s e := by
  have hmonitor : s.reading = true → ∃ e : Event, e.goesOn = true ∧ Enabled s e := by
    intro hreading
    exact ⟨.monitor none, rfl, MonitorStatus.moves_of_holds (h.reading ▸ hreading) hnothrow.2⟩
  obtain hmonitorBusy | ⟨g, hg, hcall⟩ := hbusy
  · cases hstatus : s.monitor with
    | idle => exact absurd hstatus hmonitorBusy
    | asks | writing | written => exact ⟨.monitor none, rfl, by simp [Enabled, hstatus, MonitorStatus.moves]⟩
    | stopped => exact absurd hstatus hnothrow.2
    | waiting =>
        have hgetting := h.monitorWaits hstatus
        have hcount := h.getting
        have hleaked := hnothrow.1
        obtain ⟨g, hg, hinside⟩ := inside_pos.mp (show 0 < inside s.getters by omega)
        obtain ⟨i, hi⟩ := List.mem_iff_getElem?.mp hg
        exact ⟨.get i, rfl, g, hi, GetStatus.moves_of_inside hinside⟩
  · obtain hwaits | hmoves := GetStatus.waits_or_moves hcall
    · exact hmonitor (h.getterWaits g hg hwaits)
    · obtain ⟨i, hi⟩ := List.mem_iff_getElem?.mp hg
      exact ⟨.get i, rfl, g, hi, hmoves⟩

/-! ## The length of the runs -/

/-- What a thread has left to do. One that leaves the section wakes up to `n` others and the one that reloads, and each
of these asks once more. -/
def GetStatus.weight (n : Nat) : GetStatus → Nat
  | asks => n + 5
  | waiting | counted => n + 4
  | found _ _ => n + 3
  | released _ _ => 1
  | idle | returned _ | thrown => 0

def MonitorStatus.weight (n : Nat) : MonitorStatus → Nat
  | asks => n + 4
  | waiting | writing => n + 3
  | written => n + 2
  | idle | stopped => 0

def ServerConfig.weight (s : ServerConfig) : Nat :=
  (s.getters.map (·.status.weight s.getters.length)).sum + s.monitor.weight s.getters.length

/-- How many steps an event brings with it. -/
def Event.cost (size : Nat) : Event → Nat
  | call _ _ => size + 6
  | changed => size + 5
  | wakeGetter _ | wakeMonitor => 2
  | get _ | monitor _ => 0

theorem GetStatus.weight_notified (n : Nat) (status : GetStatus) : status.notified.weight n ≤ status.weight n + 1 := by
  cases status <;> simp [notified, weight]

theorem MonitorStatus.weight_notified (n : Nat) (status : MonitorStatus) :
    status.notified.weight n ≤ status.weight n + 1 := by
  cases status <;> simp [notified, weight]

theorem sum_weight_notified (n : Nat) (getters : List Getter) :
    ((getters.map Getter.notified).map (·.status.weight n)).sum
      ≤ (getters.map (·.status.weight n)).sum + getters.length := by
  induction getters with
  | nil => simp
  | cons g getters ih =>
      have := g.status.weight_notified n
      simp only [List.map_cons, List.sum_cons, List.length_cons, Getter.notified] at ih ⊢
      omega

theorem sum_weight_set (n : Nat) {getters : List Getter} {i : Nat} {g : Getter} (hg : getters[i]? = some g)
    (g' : Getter) :
    ((getters.set i g').map (·.status.weight n)).sum + g.status.weight n
      = (getters.map (·.status.weight n)).sum + g'.status.weight n := by
  obtain ⟨before, after, hsplit, hset⟩ := Fts3.Common.set_split hg
  rw [hset, hsplit]
  simp only [List.map_append, List.map_cons, List.sum_append, List.sum_cons]
  omega

theorem weight_notifyAll (s : ServerConfig) : s.notifyAll.weight ≤ s.weight + s.getters.length + 1 := by
  have hgetters := sum_weight_notified s.getters.length s.getters
  have hmonitor := s.monitor.weight_notified s.getters.length
  unfold ServerConfig.weight ServerConfig.notifyAll
  rw [List.length_map]
  dsimp only
  omega

theorem weight_set {i : Nat} {g : Getter} (hg : s.getters[i]? = some g) (g' : Getter) (getting : Int) (leaked : Nat) :
    { s with getters := s.getters.set i g', getting, leaked }.weight + g.status.weight s.getters.length
      = s.weight + g'.status.weight s.getters.length := by
  have hsum := sum_weight_set s.getters.length hg g'
  unfold ServerConfig.weight
  rw [List.length_set]
  dsimp only
  omega

theorem weight_getStep {i : Nat} {g : Getter} (hg : s.getters[i]? = some g) (hmoves : g.status.moves = true) :
    (s.getStep i g).weight + 1 ≤ s.weight := by
  unfold ServerConfig.getStep
  split
  · case h_1 hstatus =>
      split
      · have := weight_set hg { g with status := .waiting } s.getting s.leaked
        simp only [hstatus, GetStatus.weight] at this
        unfold ServerConfig.setStatus
        omega
      · have := weight_set hg { g with status := .counted } (s.getting + 1) s.leaked
        simp only [hstatus, GetStatus.weight] at this
        simp only [ServerConfig.setStatus]
        omega
  · case h_2 hstatus =>
      cases hfind : g.query.find s.vars with
      | some text =>
          have := weight_set hg { g with status := .found text s.version } s.getting s.leaked
          simp only [hstatus, GetStatus.weight] at this
          simp only [ServerConfig.setStatus]
          omega
      | none =>
          have := weight_set hg { g with status := .thrown } s.getting (s.leaked + 1)
          simp only [hstatus, GetStatus.weight] at this
          simp only [ServerConfig.setStatus]
          omega
  · case h_3 text n hstatus =>
      have hset := weight_set hg { g with status := .released text n } (s.getting - 1) s.leaked
      have hnotify := weight_notifyAll ({ s with getting := s.getting - 1 }.setStatus i g (.released text n))
      simp only [hstatus, GetStatus.weight] at hset
      simp only [ServerConfig.setStatus, List.length_set] at hnotify ⊢
      omega
  · case h_4 text n hstatus =>
      have := weight_set hg { g with status := .returned (if g.query.keepsReference && n ≠ s.version then none
        else some text) } s.getting s.leaked
      simp only [hstatus, GetStatus.weight] at this
      unfold ServerConfig.setStatus
      omega
  · case h_5 hasks hcounted hfound hreleased =>
      cases hstatus : g.status <;> simp_all [GetStatus.moves]

theorem weight_monitorStep (hmoves : s.monitor.moves = true) (vars : Option Vars) :
    (s.monitorStep vars).weight + 1 ≤ s.weight := by
  unfold ServerConfig.monitorStep
  cases hmonitor : s.monitor with
  | idle | waiting | stopped => simp [hmonitor, MonitorStatus.moves] at hmoves
  | asks =>
      dsimp only
      split <;> simp only [ServerConfig.weight, hmonitor, MonitorStatus.weight] <;> omega
  | writing => cases vars <;> simp only [ServerConfig.weight, hmonitor, MonitorStatus.weight] <;> omega
  | written =>
      have := weight_notifyAll { s with reading := false, monitor := .idle }
      simp only [ServerConfig.weight, hmonitor, MonitorStatus.weight] at this ⊢
      omega

theorem weight_step {e : Event} (henabled : Enabled s e) :
    (step s e).weight + 1 ≤ s.weight + e.cost s.getters.length := by
  cases e with
  | call i query =>
      obtain ⟨g, hg, hcall⟩ := henabled
      have := weight_set hg { query, since := s.version, status := .asks } s.getting s.leaked
      rw [step_call hg, if_pos hcall]
      simp only [GetStatus.weight] at this
      simp only [Event.cost]
      omega
  | get i =>
      obtain ⟨g, hg, hmoves⟩ := henabled
      rw [step_get hg]
      exact weight_getStep hg hmoves
  | changed =>
      have hidle : s.monitor = .idle := henabled
      simp only [step, hidle, if_true, ServerConfig.weight, MonitorStatus.weight, Event.cost]
      omega
  | monitor vars => exact weight_monitorStep henabled vars
  | wakeGetter i =>
      obtain ⟨g, hg, hwaits⟩ := henabled
      have := weight_set hg { g with status := .asks } s.getting s.leaked
      rw [step_wakeGetter hg, hwaits]
      simp only [hwaits, GetStatus.weight] at this
      simp only [ServerConfig.setStatus, GetStatus.notified, Event.cost]
      omega
  | wakeMonitor =>
      have hwaits : s.monitor = .waiting := henabled
      simp only [step, hwaits, MonitorStatus.notified, ServerConfig.weight, MonitorStatus.weight, Event.cost]
      omega

theorem length_move {s' : ServerConfig} (hmove : Move s s') : s'.getters.length = s.getters.length := by
  cases hmove <;> simp [ServerConfig.setStatus, ServerConfig.notifyAll]

/-- The threads take a bounded number of steps for each call and for each change of the file, and as long as one of them
is in a call or a reload, there is one that can go on. -/
theorem calls_and_reloads_finish {size : Nat} {vars : Vars} {es : List Event}
    (hes : Meets step (fun s e => Enabled s e ∧ Nothrow (step s e)) (.create size vars) es) :
    es.length ≤ (es.map (Event.cost size)).sum ∧
      let s := run step (.create size vars) es
      (s.monitor ≠ .idle ∨ ∃ g ∈ s.getters, g.status.canCall = false) → ∃ e, e.goesOn = true ∧ Enabled s e := by
  have hlength : (ServerConfig.create size vars).getters.length = size := List.length_replicate
  constructor
  · have hpaid := hes.potential (I := fun s => s.getters.length = size) ServerConfig.weight (Event.cost size)
      (fun s e _ hs => (length_move (step_move s e)).trans hs) (fun s e he hs => hs ▸ weight_step he.1) hlength
    have hzero : (ServerConfig.create size vars).weight = 0 := by
      simp [ServerConfig.weight, ServerConfig.create, GetStatus.weight, MonitorStatus.weight]
    omega
  · have hnothrow : Nothrow (run step (.create size vars) es) :=
      hes.invariant (fun s e he _ => he.2) ⟨rfl, by simp [ServerConfig.create]⟩
    exact (inv_run size vars es).progress hnothrow

/-- A thread asks while the other one writes. -/
theorem calls_and_reloads_finish_asked :
    let es : List Event := [.changed, .monitor none, .call 0 (.copy "Port"), .get 0, .monitor (some [])]
    es.length ≤ (es.map (Event.cost 1)).sum ∧
      ∃ e, e.goesOn = true ∧ Enabled (run step (.create 1 [("Port", "8443")]) es) e := by
  intro es
  have hes : Meets step (fun s e => Enabled s e ∧ Nothrow (step s e)) (.create 1 [("Port", "8443")]) es :=
    ⟨⟨rfl, rfl, by decide⟩, ⟨rfl, rfl, by decide⟩, ⟨⟨_, rfl, rfl⟩, rfl, by decide⟩, ⟨⟨_, rfl, rfl⟩, rfl, by decide⟩,
      ⟨rfl, rfl, by decide⟩, trivial⟩
  have h := calls_and_reloads_finish hes
  exact ⟨h.1, h.2 (.inl (by decide))⟩

/-! ## What an exception leaves behind -/

/-- A `get` has thrown between `waitIfReading` and `notifyReaders` or is going to, or the reader has thrown. -/
def Blocked (s : ServerConfig) : Prop :=
  0 < s.leaked ∨ s.monitor = .stopped ∨
    ∃ (i : Nat) (g : Getter), s.getters[i]? = some g ∧ g.status = .counted ∧ g.query.find s.vars = none

variable {s' : ServerConfig} {i : Nat} {g : Getter}

theorem Getter.notified_of_ne_waiting (h : g.status ≠ .waiting) : g.notified = g := by
  obtain ⟨query, since, status⟩ := g
  cases status <;> simp_all [Getter.notified, GetStatus.notified]

/-- A thread that has been counted leaves this place by its own steps only. -/
theorem counted_move (hmove : Move s s') (hg : s.getters[i]? = some g) (hcounted : g.status = .counted)
    (hfind : g.query.find s.vars = none) (hwriting : s.monitor ≠ .writing) :
    0 < s'.leaked ∨ s'.getters[i]? = some g ∧ s'.vars = s.vars := by
  have hkeeps : ∀ {j : Nat} {g₁ : Getter} (g' : Getter), s.getters[j]? = some g₁ → g₁.status ≠ .counted →
      (s.getters.set j g')[i]? = some g := by
    intro j g₁ g' hg₁ hother
    have hne : j ≠ i := by
      rintro rfl
      rw [hg, Option.some.injEq] at hg₁
      exact hother (hg₁ ▸ hcounted)
    rw [List.getElem?_set_ne hne, hg]
  have hnotified : g.notified = g := Getter.notified_of_ne_waiting (by simp [hcounted])
  cases hmove with
  | stays | changes | monitorWaits | writes | stops | monitorWakes => exact .inr ⟨hg, rfl⟩
  | calls query hg₁ hcall => exact .inr ⟨hkeeps _ hg₁ (by rintro h; simp [h, GetStatus.canCall] at hcall), rfl⟩
  | waits hg₁ hasks | enters hg₁ hasks => exact .inr ⟨hkeeps _ hg₁ (by simp [hasks]), rfl⟩
  | @finds j g₁ text hg₁ hcounted₁ hfind₁ =>
      have hne : j ≠ i := by
        rintro rfl
        rw [hg, Option.some.injEq] at hg₁
        rw [← hg₁, hfind] at hfind₁
        simp at hfind₁
      exact .inr ⟨by rw [ServerConfig.setStatus, List.getElem?_set_ne hne, hg], rfl⟩
  | throws => exact .inl (Nat.succ_pos _)
  | leaves hg₁ hfound =>
      refine .inr ⟨?_, rfl⟩
      simp only [ServerConfig.notifyAll, ServerConfig.setStatus, List.getElem?_map, hkeeps _ hg₁ (by simp [hfound]),
        Option.map_some, hnotified]
  | returns hg₁ hreleased => exact .inr ⟨hkeeps _ hg₁ (by simp [hreleased]), rfl⟩
  | installs vars hinstalls => exact absurd hinstalls hwriting
  | reopens => exact .inr ⟨by simp only [ServerConfig.notifyAll, List.getElem?_map, hg, Option.map_some, hnotified], rfl⟩
  | @wakes j g₁ hg₁ =>
      refine .inr ⟨?_, rfl⟩
      by_cases hij : j = i
      · subst hij
        obtain rfl : g₁ = g := by simpa [hg₁] using hg
        obtain ⟨hlt, -⟩ := List.getElem?_eq_some_iff.mp hg
        show (s.getters.set j g₁.notified)[j]? = some g₁
        rw [List.getElem?_set_self hlt, hnotified]
      · rw [ServerConfig.setStatus, List.getElem?_set_ne hij, hg]

/-- While one thread writes, no other one is in the map. -/
theorem Inv.not_blocked (h : Inv s) (hwriting : s.monitor = .writing) : ¬ Blocked s := by
  have hreading : s.reading = true := by rw [h.reading, hwriting]; rfl
  have hgetting := h.getting
  have hexcluded := h.excluded hreading
  rintro (hleaked | hstopped | ⟨i, g, hg, hcounted, -⟩)
  · omega
  · simp [hwriting] at hstopped
  · have := h.not_reading hg (by rw [hcounted]; rfl)
    simp [hreading] at this

theorem leaked_move (hmove : Move s s') : s.leaked ≤ s'.leaked := by
  cases hmove <;> simp [ServerConfig.setStatus, ServerConfig.notifyAll]

theorem stopped_move (hmove : Move s s') (hstopped : s.monitor = .stopped) : s'.monitor = .stopped := by
  cases hmove <;> simp_all [ServerConfig.setStatus, ServerConfig.notifyAll, MonitorStatus.notified]

theorem history_move (hmove : Move s s') (hwriting : s.monitor ≠ .writing) : s'.history = s.history := by
  cases hmove with
  | installs vars hinstalls => exact absurd hinstalls hwriting
  | stays | calls | waits | enters | finds | throws | leaves | returns | changes | monitorWaits | writes | stops
  | reopens | wakes | monitorWakes => rfl

theorem Blocked.move (h : Inv s) (hblocked : Blocked s) (hmove : Move s s') :
    Blocked s' ∧ s'.history = s.history := by
  have hwriting : s.monitor ≠ .writing := fun hwriting => h.not_blocked hwriting hblocked
  refine ⟨?_, history_move hmove hwriting⟩
  obtain hleaked | hstopped | ⟨i, g, hg, hcounted, hfind⟩ := hblocked
  · exact .inl (hleaked.trans_le (leaked_move hmove))
  · exact .inr (.inl (stopped_move hmove hstopped))
  · obtain hleaked | ⟨hg', hvars⟩ := counted_move hmove hg hcounted hfind hwriting
    · exact .inl hleaked
    · exact .inr (.inr ⟨i, g, hg', hcounted, by rw [hvars, hfind]⟩)

theorem Blocked.run {es : List Event} (h : Inv s) (hblocked : Blocked s) : (run step s es).history = s.history := by
  induction es generalizing s with
  | nil => rfl
  | cons e es ih =>
      obtain ⟨hblocked', hhistory⟩ := hblocked.move h (step_move s e)
      rw [run_cons, ih (h.move (step_move s e)) hblocked', hhistory]

/-! ## A reload that nothing blocks -/

theorem find_of_not_blocked (h : ¬ Blocked s) (hg : s.getters[i]? = some g) (hcounted : g.status = .counted) :
    ∃ text, g.query.find s.vars = some text := by
  cases hfind : g.query.find s.vars with
  | some text => exact ⟨text, rfl⟩
  | none => exact absurd (.inr (.inr ⟨i, g, hg, hcounted, hfind⟩)) h

/-- A change of one thread to a place outside of the map blocks nothing. -/
theorem not_blocked_of_getters (h : ¬ Blocked s) (hleaked : s'.leaked = s.leaked)
    (hmonitor : s'.monitor = s.monitor ∨ s'.monitor = s.monitor.notified) (hvars : s'.vars = s.vars)
    (hgetters : ∀ (i : Nat) (g : Getter), s'.getters[i]? = some g → g.status = .counted →
      ∃ j : Nat, s.getters[j]? = some g) :
    ¬ Blocked s' := by
  rintro (hleaked' | hstopped | ⟨i, g, hg, hcounted, hfind⟩)
  · exact h (.inl (hleaked ▸ hleaked'))
  · refine h (.inr (.inl ?_))
    obtain hmonitor | hmonitor := hmonitor
    · rw [← hmonitor, hstopped]
    · cases hstatus : s.monitor <;> simp_all [MonitorStatus.notified]
  · obtain ⟨j, hj⟩ := hgetters i g hg hcounted
    exact h (.inr (.inr ⟨j, g, hj, hcounted, by rw [← hvars, hfind]⟩))

theorem mem_of_set {getters : List Getter} {j : Nat} {g' : Getter} (hset : (getters.set i g')[j]? = some g)
    (hcounted : g.status = .counted) (hother : g'.status ≠ .counted) : ∃ j : Nat, getters[j]? = some g := by
  obtain hg | rfl := List.mem_or_eq_of_mem_set (List.mem_of_getElem? hset)
  · exact List.mem_iff_getElem?.mp hg
  · exact absurd hcounted hother

theorem not_blocked_getStep (h : ¬ Blocked s) (hg : s.getters[i]? = some g) (hinside : g.status.inside = true) :
    ¬ Blocked (s.getStep i g) := by
  unfold ServerConfig.getStep
  split
  · case h_1 hstatus => simp [hstatus, GetStatus.inside] at hinside
  · case h_2 hcounted =>
      obtain ⟨text, hfind⟩ := find_of_not_blocked h hg hcounted
      rw [hfind]
      exact not_blocked_of_getters h rfl (.inl rfl) rfl fun j g' hg' hcounted' => mem_of_set hg' hcounted' (by simp)
  · case h_3 text n hstatus =>
      refine not_blocked_of_getters h rfl (.inr rfl) rfl fun j g' hg' hcounted' => ?_
      simp only [ServerConfig.notifyAll, ServerConfig.setStatus, List.getElem?_map, Option.map_eq_some_iff] at hg'
      obtain ⟨g₁, hg₁, rfl⟩ := hg'
      have hstatus₁ : g₁.status = .counted := by
        revert hcounted'
        cases hstatus₁ : g₁.status <;> simp [Getter.notified, GetStatus.notified, hstatus₁]
      rw [Getter.notified_of_ne_waiting (by simp [hstatus₁])]
      exact mem_of_set hg₁ hstatus₁ (by simp)
  · case h_4 hstatus => simp [hstatus, GetStatus.inside] at hinside
  · exact h

theorem reload_of_empty (h : Inv s) (hblocked : ¬ Blocked s) (hinside : inside s.getters = 0) :
    ∃ es : List Event, (Machine.run step s es).history ≠ s.history := by
  have hgetting : s.getting = 0 := by
    have hleaked : s.leaked = 0 := by
      by_contra hleaked
      exact hblocked (.inl (Nat.pos_of_ne_zero hleaked))
    have := h.getting
    omega
  cases hmonitor : s.monitor with
  | idle =>
      refine ⟨[.changed, .monitor none, .monitor (some [])], ?_⟩
      simp [Machine.run, step, ServerConfig.monitorStep, hmonitor, hgetting]
  | asks =>
      refine ⟨[.monitor none, .monitor (some [])], ?_⟩
      simp [Machine.run, step, ServerConfig.monitorStep, hmonitor, hgetting]
  | waiting =>
      have := h.monitorWaits hmonitor
      omega
  | writing =>
      refine ⟨[.monitor (some [])], ?_⟩
      simp [Machine.run, step, ServerConfig.monitorStep, hmonitor]
  | written =>
      refine ⟨[.monitor none, .changed, .monitor none, .monitor (some [])], ?_⟩
      simp [Machine.run, step, ServerConfig.monitorStep, ServerConfig.notifyAll, MonitorStatus.notified, hmonitor,
        hgetting]
  | stopped => exact absurd (.inr (.inl hmonitor)) hblocked

/-- The threads in the map leave it one after the other. -/
theorem reload_of_not_blocked (h : Inv s) (hblocked : ¬ Blocked s) :
    ∃ es : List Event, (Machine.run step s es).history ≠ s.history := by
  induction hweight : s.weight using Nat.strong_induction_on generalizing s with
  | _ w ih =>
      cases hinside : inside s.getters with
      | zero => exact reload_of_empty h hblocked hinside
      | succ n =>
          have hpos : 0 < inside s.getters := by omega
          obtain ⟨g, hg, hg_inside⟩ := inside_pos.mp hpos
          obtain ⟨i, hi⟩ := List.mem_iff_getElem?.mp hg
          have hmove := move_getStep hi
          have hless := weight_getStep hi (GetStatus.moves_of_inside hg_inside)
          obtain ⟨es, hes⟩ := ih _ (by omega) (h.move hmove) (not_blocked_getStep hblocked hi hg_inside) rfl
          refine ⟨.get i :: es, ?_⟩
          have hopen := h.not_reading hi hg_inside
          have hwriting : s.monitor ≠ .writing := by
            intro hwriting
            rw [h.reading, hwriting] at hopen
            exact absurd hopen (by decide)
          rw [run_cons, step_get hi]
          rwa [history_move hmove hwriting] at hes

/-- A `get` of a variable that is not there, or a file that cannot be read, ends all the reloads. -/
theorem reload_possible_iff (size : Nat) (vars : Vars) (es : List Event) :
    let s := run step (.create size vars) es
    (∃ es', (run step s es').history ≠ s.history) ↔ ¬ Blocked s := by
  intro s
  have h : Inv s := inv_run size vars es
  constructor
  · rintro ⟨es', hes'⟩ hblocked
    exact hes' (hblocked.run h)
  · exact reload_of_not_blocked h

end Fts3.Config
