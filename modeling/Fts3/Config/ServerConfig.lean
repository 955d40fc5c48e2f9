import Fts3.Common.ThreadPool

/-!
# The configuration of the server

`ServerConfig.cpp` and `FileMonitor.cpp`: any number of threads read the variables while one thread reloads them when
the file has changed. The sections under the mutex, the accesses of the map outside of it and the wake-ups are the steps.
-/

namespace Fts3.Config

open Fts3.Machine

/-- `_t_vars` -/
abbrev Vars := List (String × String)

/-- What a `get` asks for. That of a text or of a vector keeps the reference that `_get_str` returns; those of a `bool` and
of a duration copy the text, and so does that of the variables with matching names. -/
inductive Query where
  | reference (aVariable : String)
  | copy (aVariable : String)
  | matching (re : String → Bool)

/-- `_get_str`, with an exception as `none`, and the loop over the matching names. -/
def Query.find (vars : Vars) : Query → Option Vars
  | reference v | copy v => (vars.find? fun e => e.1 = v).map ([·])
  | matching re => some (vars.filter fun e => re e.1)

def Query.keepsReference : Query → Bool
  | reference _ => true
  | _ => false

/-! ## The threads -/

/-- Where a thread that reads the configuration is. -/
inductive GetStatus where
  | idle
  /-- Asks for the lock in `waitIfReading`. -/
  | asks
  /-- In `qv.wait`. -/
  | waiting
  | counted
  /-- Has found a text in the version with this number, and asks for the lock in `notifyReaders`. -/
  | found (text : Vars) (version : Nat)
  /-- Converts the text. -/
  | released (text : Vars) (version : Nat)
  /-- With `none` for a reference into a map that is there no longer. -/
  | returned (text : Option Vars)
  | thrown

structure Getter where
  query : Query := .copy ""
  /-- The version at the call. -/
  since : Nat := 0
  status : GetStatus := .idle

inductive MonitorStatus where
  /-- In `sleep`. -/
  | idle
  /-- Asks for the lock in `waitIfGetting`. -/
  | asks
  | waiting
  | writing
  /-- Asks for the lock in `notifyGetters`. -/
  | written
  /-- The reader has thrown, and the thread has ended. -/
  | stopped
  deriving DecidableEq

structure ServerConfig where
  vars : Vars
  reading : Bool := false
  getting : Int := 0
  getters : List Getter
  monitor : MonitorStatus := .idle
  /-- The versions of the variables so far. -/
  history : List Vars
  /-- How many calls have thrown. -/
  leaked : Nat := 0

inductive Event where
  | call (i : Nat) (query : Query)
  | get (i : Nat)
  /-- The time of the file has changed. -/
  | changed
  /-- With what the reader returns, or `none` if it throws. -/
  | monitor (vars : Option Vars)
  | wakeGetter (i : Nat)
  | wakeMonitor

def GetStatus.notified : GetStatus → GetStatus
  | waiting => asks
  | status => status

def MonitorStatus.notified : MonitorStatus → MonitorStatus
  | waiting => asks
  | status => status

def Getter.notified (g : Getter) : Getter :=
  { g with status := g.status.notified }

/-- The number of the version that is installed. -/
def ServerConfig.version (s : ServerConfig) : Nat :=
  s.history.length - 1

/-- `qv.notify_all`: both kinds of threads wait on the same variable. -/
def ServerConfig.notifyAll (s : ServerConfig) : ServerConfig :=
  { s with getters := s.getters.map Getter.notified, monitor := s.monitor.notified }

def ServerConfig.setStatus (s : ServerConfig) (i : Nat) (g : Getter) (status : GetStatus) : ServerConfig :=
  { s with getters := s.getters.set i { g with status := status } }

/-- One step of `get`. -/
def ServerConfig.getStep (s : ServerConfig) (i : Nat) (g : Getter) : ServerConfig :=
  match g.status with
  | .asks => if s.reading then s.setStatus i g .waiting else { s with getting := s.getting + 1 }.setStatus i g .counted
  | .counted =>
      match g.query.find s.vars with
      | some text => s.setStatus i g (.found text s.version)
      | none => { s with leaked := s.leaked + 1 }.setStatus i g .thrown
  | .found text version => ({ s with getting := s.getting - 1 }.setStatus i g (.released text version)).notifyAll
  | .released text version =>
      s.setStatus i g (.returned (if g.query.keepsReference && version ≠ s.version then none else some text))
  | _ => s

/-- One step of the thread of `FileMonitor`, in `_read`. -/
def ServerConfig.monitorStep (s : ServerConfig) (vars : Option Vars) : ServerConfig :=
  match s.monitor with
  | .asks => if 0 < s.getting then { s with monitor := .waiting } else { s with reading := true, monitor := .writing }
  | .writing =>
      match vars with
      | some vars => { s with vars := vars, history := s.history ++ [vars], monitor := .written }
      | none => { s with monitor := .stopped }
  | .written => { s with reading := false, monitor := .idle }.notifyAll
  | _ => s

def GetStatus.canCall : GetStatus → Bool
  | idle | returned _ | thrown => true
  | _ => false

def step (s : ServerConfig) : Event → ServerConfig
  | .call i query =>
      match s.getters[i]? with
      | none => s
      | some g =>
          if g.status.canCall then { s with getters := s.getters.set i { query, since := s.version, status := .asks } }
          else s
  | .get i =>
      match s.getters[i]? with
      | none => s
      | some g => s.getStep i g
  | .changed => if s.monitor = .idle then { s with monitor := .asks } else s
  | .monitor vars => s.monitorStep vars
  | .wakeGetter i =>
      match s.getters[i]? with
      | none => s
      | some g => s.setStatus i g g.status.notified
  | .wakeMonitor => { s with monitor := s.monitor.notified }

/-- The configuration that has been read at the start. -/
def ServerConfig.create (size : Nat) (vars : Vars) : ServerConfig where
  vars
  getters := List.replicate size {}
  history := [vars]

/-! ## The threads in the map -/

def GetStatus.inside : GetStatus → Bool
  | counted | found _ _ => true
  | _ => false

/-- How many threads are between `waitIfReading` and `notifyReaders`. -/
def inside (getters : List Getter) : Nat :=
  getters.countP (·.status.inside)

/-- What a `get` has found is in a version that was installed since its call, and only a reference is lost. -/
def Getter.Reads (history : List Vars) (g : Getter) : GetStatus → Prop
  | .found text n | .released text n =>
      g.since ≤ n ∧ ∃ vars, history[n]? = some vars ∧ g.query.find vars = some text
  | .returned (some text) => ∃ n vars, g.since ≤ n ∧ history[n]? = some vars ∧ g.query.find vars = some text
  | .returned none => g.query.keepsReference = true ∧ g.since + 1 < history.length
  | .thrown => ∃ n vars, g.since ≤ n ∧ history[n]? = some vars ∧ g.query.find vars = none
  | _ => True

def MonitorStatus.holds : MonitorStatus → Bool
  | writing | written | stopped => true
  | _ => false

/-- What holds in every state, whatever throws and whoever is not notified. -/
structure Core (s : ServerConfig) : Prop where
  getting : s.getting = inside s.getters + s.leaked
  reading : s.reading = s.monitor.holds
  excluded : s.reading = true → s.getting = 0
  installed : s.history ≠ []
  current : s.history[s.version]? = some s.vars
  since : ∀ g ∈ s.getters, g.since ≤ s.version
  reads : ∀ g ∈ s.getters, g.Reads s.history g.status

/-- A thread waits only for one that will notify it. -/
structure Inv (s : ServerConfig) : Prop extends Core s where
  getterWaits : ∀ g ∈ s.getters, g.status = .waiting → s.reading = true
  monitorWaits : s.monitor = .waiting → 0 < s.getting

variable {s : ServerConfig} {i : Nat} {g g' : Getter}

theorem inside_set {getters : List Getter} (hg : getters[i]? = some g) (g' : Getter) :
    inside (getters.set i g') + g.status.inside.toNat = inside getters + g'.status.inside.toNat := by
  obtain ⟨before, after, hsplit, hset⟩ := Fts3.Common.set_split hg
  rw [hset, hsplit]
  unfold inside
  simp only [List.countP_append, List.countP_cons]
  cases g.status.inside <;> cases g'.status.inside <;> simp <;> omega

theorem inside_pos {getters : List Getter} : 0 < inside getters ↔ ∃ g ∈ getters, g.status.inside = true :=
  List.countP_pos_iff

@[simp] theorem GetStatus.inside_notified (status : GetStatus) : status.notified.inside = status.inside := by
  cases status <;> rfl

theorem GetStatus.inside_eq_false {status : GetStatus} (h : status.canCall = true) : status.inside = false := by
  cases status <;> simp_all [canCall, inside]

theorem GetStatus.notified_ne_waiting (status : GetStatus) : status.notified ≠ waiting := by
  cases status <;> simp [notified]

@[simp] theorem MonitorStatus.holds_notified (status : MonitorStatus) : status.notified.holds = status.holds := by
  cases status <;> rfl

theorem MonitorStatus.notified_ne_waiting (status : MonitorStatus) : status.notified ≠ waiting := by
  cases status <;> decide

theorem Getter.Reads.notified {history : List Vars} (h : g.Reads history g.status) :
    g.notified.Reads history g.notified.status := by
  unfold Getter.notified
  cases hstatus : g.status <;> simp_all [GetStatus.notified, Getter.Reads]

theorem inside_map_notified (getters : List Getter) : inside (getters.map Getter.notified) = inside getters := by
  unfold inside
  rw [List.countP_map]
  exact List.countP_congr fun g hg => by simp [Getter.notified]

theorem lookup_append {history : List Vars} {n : Nat} {vars vars' : Vars} (h : history[n]? = some vars) :
    (history ++ [vars'])[n]? = some vars := by
  obtain ⟨hn, -⟩ := List.getElem?_eq_some_iff.mp h
  rw [List.getElem?_append_left hn, h]

theorem Getter.Reads.append {history : List Vars} {status : GetStatus} (vars' : Vars) (h : g.Reads history status) :
    g.Reads (history ++ [vars']) status := by
  match status, h with
  | .found _ _, ⟨hsince, vars, hn, hfind⟩ => exact ⟨hsince, vars, lookup_append hn, hfind⟩
  | .released _ _, ⟨hsince, vars, hn, hfind⟩ => exact ⟨hsince, vars, lookup_append hn, hfind⟩
  | .returned (some _), ⟨n, vars, hsince, hn, hfind⟩ => exact ⟨n, vars, hsince, lookup_append hn, hfind⟩
  | .returned none, ⟨hkeeps, hsince⟩ => exact ⟨hkeeps, by rw [List.length_append]; omega⟩
  | .thrown, ⟨n, vars, hsince, hn, hfind⟩ => exact ⟨n, vars, hsince, lookup_append hn, hfind⟩
  | .idle, _ | .asks, _ | .waiting, _ | .counted, _ => trivial

/-! ## The steps -/

/-- The notifications restore what the step before them has broken. -/
theorem Core.notifyAll (h : Core s) : Inv s.notifyAll where
  getting := by rw [ServerConfig.notifyAll, inside_map_notified]; exact h.getting
  reading := by rw [ServerConfig.notifyAll, MonitorStatus.holds_notified]; exact h.reading
  excluded := h.excluded
  installed := h.installed
  current := h.current
  since _ hg := by
    obtain ⟨g, hmem, rfl⟩ := List.mem_map.mp hg
    exact h.since g hmem
  reads _ hg := by
    obtain ⟨g, hmem, rfl⟩ := List.mem_map.mp hg
    exact (h.reads g hmem).notified
  getterWaits _ hg hwaits := by
    obtain ⟨g, -, rfl⟩ := List.mem_map.mp hg
    exact absurd hwaits g.status.notified_ne_waiting
  monitorWaits hwaits := absurd hwaits s.monitor.notified_ne_waiting

/-- A thread moves, and the counters move with it. -/
theorem Core.set (h : Core s) (hg : s.getters[i]? = some g) (g' : Getter) (getting : Int) (leaked : Nat)
    (hgetting : getting + g.status.inside.toNat + s.leaked = s.getting + g'.status.inside.toNat + leaked)
    (hexcluded : s.reading = true → getting = 0) (hsince : g'.since ≤ s.version) (hreads : g'.Reads s.history g'.status) :
    Core { s with getters := s.getters.set i g', getting, leaked } where
  getting := by
    have hcount := inside_set hg g'
    have hbefore := h.getting
    dsimp only
    omega
  reading := h.reading
  excluded := hexcluded
  installed := h.installed
  current := h.current
  since g'' hg'' := by
    obtain hg'' | rfl := List.mem_or_eq_of_mem_set hg''
    · exact h.since g'' hg''
    · exact hsince
  reads g'' hg'' := by
    obtain hg'' | rfl := List.mem_or_eq_of_mem_set hg''
    · exact h.reads g'' hg''
    · exact hreads

theorem Inv.set (h : Inv s) (hg : s.getters[i]? = some g) (g' : Getter) (getting : Int) (leaked : Nat)
    (hgetting : getting + g.status.inside.toNat + s.leaked = s.getting + g'.status.inside.toNat + leaked)
    (hexcluded : s.reading = true → getting = 0) (hsince : g'.since ≤ s.version) (hreads : g'.Reads s.history g'.status)
    (hwaits : g'.status = .waiting → s.reading = true) (hmonitor : s.monitor = .waiting → 0 < getting) :
    Inv { s with getters := s.getters.set i g', getting, leaked } where
  toCore := h.toCore.set hg g' getting leaked hgetting hexcluded hsince hreads
  getterWaits g'' hg'' := by
    obtain hg'' | rfl := List.mem_or_eq_of_mem_set hg''
    · exact h.getterWaits g'' hg''
    · exact hwaits
  monitorWaits := hmonitor

theorem Core.not_reading (h : Core s) (hg : s.getters[i]? = some g) (hinside : g.status.inside = true) :
    s.reading = false := by
  have hpos : 0 < inside s.getters := inside_pos.mpr ⟨g, List.mem_of_getElem? hg, hinside⟩
  have hgetting := h.getting
  by_contra hreading
  have := h.excluded (by simpa using hreading)
  omega

theorem Core.since_getElem (h : Core s) (hg : s.getters[i]? = some g) : g.since ≤ s.version :=
  h.since g (List.mem_of_getElem? hg)

/-- What a step changes: one thread that reads, the one that reloads, or nothing. -/
inductive Move (s : ServerConfig) : ServerConfig → Prop where
  | stays : Move s s
  | calls {i : Nat} {g : Getter} (query : Query) (hg : s.getters[i]? = some g) (hcall : g.status.canCall = true) :
      Move s { s with getters := s.getters.set i { query, since := s.version, status := .asks } }
  | waits {i : Nat} {g : Getter} (hg : s.getters[i]? = some g) (hasks : g.status = .asks)
      (hreading : s.reading = true) :
      Move s (s.setStatus i g .waiting)
  | enters {i : Nat} {g : Getter} (hg : s.getters[i]? = some g) (hasks : g.status = .asks)
      (hreading : s.reading = false) :
      Move s ({ s with getting := s.getting + 1 }.setStatus i g .counted)
  | finds {i : Nat} {g : Getter} {text : Vars} (hg : s.getters[i]? = some g) (hcounted : g.status = .counted)
      (hfind : g.query.find s.vars = some text) : Move s (s.setStatus i g (.found text s.version))
  | throws {i : Nat} {g : Getter} (hg : s.getters[i]? = some g) (hcounted : g.status = .counted)
      (hfind : g.query.find s.vars = none) :
      Move s ({ s with leaked := s.leaked + 1 }.setStatus i g .thrown)
  | leaves {i : Nat} {g : Getter} {text : Vars} {n : Nat} (hg : s.getters[i]? = some g)
      (hfound : g.status = .found text n) :
      Move s ({ s with getting := s.getting - 1 }.setStatus i g (.released text n)).notifyAll
  | returns {i : Nat} {g : Getter} {text : Vars} {n : Nat} (hg : s.getters[i]? = some g)
      (hreleased : g.status = .released text n) :
      Move s (s.setStatus i g (.returned (if g.query.keepsReference && n ≠ s.version then none else some text)))
  | changes (hidle : s.monitor = .idle) : Move s { s with monitor := .asks }
  | monitorWaits (hasks : s.monitor = .asks) (hgetting : 0 < s.getting) : Move s { s with monitor := .waiting }
  | writes (hasks : s.monitor = .asks) (hgetting : ¬ 0 < s.getting) :
      Move s { s with reading := true, monitor := .writing }
  | installs (vars : Vars) (hwriting : s.monitor = .writing) :
      Move s { s with vars, history := s.history ++ [vars], monitor := .written }
  | stops (hwriting : s.monitor = .writing) : Move s { s with monitor := .stopped }
  | reopens (hwritten : s.monitor = .written) : Move s { s with reading := false, monitor := .idle }.notifyAll
  | wakes {i : Nat} {g : Getter} (hg : s.getters[i]? = some g) : Move s (s.setStatus i g g.status.notified)
  | monitorWakes : Move s { s with monitor := s.monitor.notified }

section steps

variable (hg : s.getters[i]? = some g)
include hg

theorem step_call (query : Query) :
    step s (.call i query) = if g.status.canCall then
      { s with getters := s.getters.set i { query, since := s.version, status := .asks } } else s := by
  simp only [step, hg]

theorem step_get : step s (.get i) = s.getStep i g := by
  simp only [step, hg]

theorem step_wakeGetter : step s (.wakeGetter i) = s.setStatus i g g.status.notified := by
  simp only [step, hg]

theorem move_getStep : Move s (s.getStep i g) := by
  unfold ServerConfig.getStep
  split
  · case h_1 hasks =>
      by_cases hreading : s.reading = true
      · rw [if_pos hreading]
        exact .waits hg hasks hreading
      · rw [if_neg hreading]
        exact .enters hg hasks (by simpa using hreading)
  · case h_2 hcounted =>
      cases hfind : g.query.find s.vars with
      | some text => exact .finds hg hcounted hfind
      | none => exact .throws hg hcounted hfind
  · case h_3 hfound => exact .leaves hg hfound
  · case h_4 hreleased => exact .returns hg hreleased
  · exact .stays

end steps

theorem move_monitorStep (s : ServerConfig) (vars : Option Vars) : Move s (s.monitorStep vars) := by
  unfold ServerConfig.monitorStep
  split
  · case h_1 hasks =>
      by_cases hgetting : 0 < s.getting
      · rw [if_pos hgetting]
        exact .monitorWaits hasks hgetting
      · rw [if_neg hgetting]
        exact .writes hasks hgetting
  · case h_2 hwriting =>
      cases vars with
      | some vars => exact .installs vars hwriting
      | none => exact .stops hwriting
  · case h_3 hwritten => exact .reopens hwritten
  · exact .stays

theorem step_move (s : ServerConfig) (e : Event) : Move s (step s e) := by
  cases e with
  | call i query =>
      cases hg : s.getters[i]? with
      | none => simpa only [step, hg] using .stays
      | some g =>
          rw [step_call hg]
          by_cases hcall : g.status.canCall = true
          · rw [if_pos hcall]
            exact .calls query hg hcall
          · rw [if_neg hcall]
            exact .stays
  | get i =>
      cases hg : s.getters[i]? with
      | none => simpa only [step, hg] using .stays
      | some g =>
          rw [step_get hg]
          exact move_getStep hg
  | changed =>
      unfold step
      by_cases hidle : s.monitor = .idle
      · rw [if_pos hidle]
        exact .changes hidle
      · rw [if_neg hidle]
        exact .stays
  | monitor vars => exact move_monitorStep s vars
  | wakeGetter i =>
      cases hg : s.getters[i]? with
      | none => simpa only [step, hg] using .stays
      | some g =>
          rw [step_wakeGetter hg]
          exact .wakes hg
  | wakeMonitor => exact .monitorWakes

theorem Inv.move {s' : ServerConfig} (h : Inv s) (hmove : Move s s') : Inv s' := by
  have hopen := h.reading
  cases hmove with
  | stays => exact h
  | calls query hg hcall =>
      refine h.set hg { query, since := s.version, status := .asks } s.getting s.leaked ?_ h.excluded le_rfl trivial ?_
        h.monitorWaits
      · rw [GetStatus.inside_eq_false hcall]
        rfl
      · simp
  | @waits i g hg hasks hreading =>
      have hsince := h.since_getElem hg
      refine h.set hg { g with status := .waiting } s.getting s.leaked ?_ h.excluded hsince trivial ?_
        h.monitorWaits
      · simp [hasks, GetStatus.inside]
      · exact fun _ => hreading
  | @enters i g hg hasks hreading =>
      have hsince := h.since_getElem hg
      refine h.set hg { g with status := .counted } (s.getting + 1) s.leaked ?_ ?_ hsince trivial ?_ ?_
      · simp [hasks, GetStatus.inside]
      · exact fun h => absurd h (by simp [hreading])
      · simp
      · intro hwaits
        have := h.monitorWaits hwaits
        omega
  | @finds i g text hg hcounted hfind =>
      have hsince := h.since_getElem hg
      refine h.set hg { g with status := .found text s.version } s.getting s.leaked ?_ h.excluded hsince ?_ ?_
        h.monitorWaits
      · simp [hcounted, GetStatus.inside]
      · exact ⟨hsince, s.vars, h.current, hfind⟩
      · simp
  | @throws i g hg hcounted hfind =>
      have hsince := h.since_getElem hg
      refine h.set hg { g with status := .thrown } s.getting (s.leaked + 1) ?_ h.excluded hsince ?_ ?_
        h.monitorWaits
      · simp [hcounted, GetStatus.inside]
        omega
      · exact ⟨s.version, s.vars, hsince, h.current, hfind⟩
      · simp
  | @leaves i g text n hg hfound =>
      have hsince := h.since_getElem hg
      have hreading := h.not_reading hg (by rw [hfound]; rfl)
      have hreads := h.reads g (List.mem_of_getElem? hg)
      rw [hfound] at hreads
      refine Core.notifyAll (h.toCore.set hg { g with status := .released text n } (s.getting - 1) s.leaked ?_ ?_
        hsince hreads)
      · simp [hfound, GetStatus.inside]
      · simp [hreading]
  | @returns i g text n hg hreleased =>
      have hsince := h.since_getElem hg
      have hreads := h.reads g (List.mem_of_getElem? hg)
      rw [hreleased] at hreads
      obtain ⟨hn, vars, hvars, hfind⟩ := hreads
      refine h.set hg { g with status := .returned _ } s.getting s.leaked ?_ h.excluded hsince ?_ ?_
        h.monitorWaits
      · simp [hreleased, GetStatus.inside]
      · by_cases hlost : (g.query.keepsReference && decide (n ≠ s.version)) = true
        · simp only [hlost, if_true]
          obtain ⟨hkeeps, hother⟩ : g.query.keepsReference = true ∧ n ≠ s.version := by simpa using hlost
          obtain ⟨hlt, -⟩ := List.getElem?_eq_some_iff.mp hvars
          unfold ServerConfig.version at hother
          exact ⟨hkeeps, by dsimp only; omega⟩
        · simp only [hlost]
          exact ⟨n, vars, hn, hvars, hfind⟩
      · simp
  | changes hidle => exact { h with reading := by rw [hopen, hidle]; rfl, monitorWaits := by simp }
  | monitorWaits hasks hgetting =>
      exact { h with reading := by rw [hopen, hasks]; rfl, monitorWaits := fun _ => hgetting }
  | writes hasks hgetting =>
      have := h.getting
      exact
        { h with
          reading := rfl
          excluded := fun _ => by dsimp only; omega
          getterWaits := fun _ _ _ => rfl
          monitorWaits := by simp }
  | installs vars hwriting =>
      have hlength := List.length_pos_of_ne_nil h.installed
      exact
        { h with
          reading := by rw [hopen, hwriting]; rfl
          installed := by simp
          current := by simp [ServerConfig.version]
          since := fun g hg => by
            have := h.since g hg
            simp only [ServerConfig.version, List.length_append, List.length_singleton] at this ⊢
            omega
          reads := fun g hg => (h.reads g hg).append vars
          monitorWaits := by simp }
  | stops hwriting => exact { h with reading := by rw [hopen, hwriting]; rfl, monitorWaits := by simp }
  | reopens hwritten => exact Core.notifyAll { h with reading := rfl, excluded := by simp }
  | @wakes i g hg =>
      have hsince := h.since_getElem hg
      have hreads := (h.reads g (List.mem_of_getElem? hg)).notified
      refine h.set hg g.notified s.getting s.leaked ?_ h.excluded hsince hreads ?_ h.monitorWaits
      · simp [Getter.notified]
      · exact fun hwaits => absurd hwaits g.status.notified_ne_waiting
  | monitorWakes =>
      exact
        { h with
          reading := hopen.trans (MonitorStatus.holds_notified _).symm
          monitorWaits := fun hwaits => absurd hwaits s.monitor.notified_ne_waiting }

theorem inv_create (size : Nat) (vars : Vars) : Inv (.create size vars) where
  getting := by simp [ServerConfig.create, inside, List.countP_replicate, GetStatus.inside]
  reading := rfl
  excluded := by simp [ServerConfig.create]
  installed := by simp [ServerConfig.create]
  current := rfl
  since g hg := by
    obtain rfl := List.eq_of_mem_replicate hg
    exact Nat.zero_le _
  reads g hg := by
    obtain rfl := List.eq_of_mem_replicate hg
    trivial
  getterWaits g hg := by
    obtain rfl := List.eq_of_mem_replicate hg
    simp
  monitorWaits := by simp [ServerConfig.create]

theorem inv_run (size : Nat) (vars : Vars) (es : List Event) : Inv (run step (.create size vars) es) :=
  (meets_of_forall (D := fun _ => True) fun _ _ => trivial).invariant (fun s e _ h => h.move (step_move s e))
    (inv_create size vars)

/-! ## What a get returns -/

/-- Any number of threads read the configuration and one reloads it, in any order of their steps. -/
theorem gets_read_installed_versions (size : Nat) (vars : Vars) (es : List Event) :
    let s := run step (.create size vars) es
    (∀ g ∈ s.getters, g.Reads s.history g.status) ∧
      (s.monitor = .writing → ∀ g ∈ s.getters, g.status.inside = false) := by
  intro s
  have h : Inv s := inv_run size vars es
  refine ⟨h.reads, fun hwriting g hg => ?_⟩
  obtain ⟨i, hi⟩ := List.mem_iff_getElem?.mp hg
  by_contra hinside
  have := h.not_reading hi (by simpa using hinside)
  rw [h.reading, hwriting] at this
  exact absurd this (by decide)

end Fts3.Config
