import Fts3.Machine.Run
import Fts3.MySql.HashSegments
import Mathlib.Data.List.Count
import Mathlib.Data.List.Perm.Subperm
import Mathlib.Data.String.Basic

/-!
# Living nodes

The nodes of a service beat one statement at a time, between any other statements, while the hosts that do not belong to
them stay silent. Whatever happens in between, each node that has read the hosts has its part of the hash space. Drain mode,
in which a node does not beat, is left out, and so is what `index` holds while the loop counts: a node leads by the index of
the segment that it has stored.
-/

namespace Fts3.MySql

open Fts3.Machine

/-! ## Places in an order -/

section place

variable {α : Type} [LinearOrder α] {l : List α}

theorem countP_lt_countP {x y : α} (hnodup : l.Nodup) (hx : x ∈ l) (hlt : x < y) :
    (l.countP fun z => z < x) < l.countP fun z => z < y := by
  have hsub : x :: l.filter (· < x) ⊆ l.filter (· < y) := by
    intro z hz
    rcases List.mem_cons.mp hz with rfl | hz
    · exact List.mem_filter.mpr ⟨hx, by simpa using hlt⟩
    · obtain ⟨hz, hzx⟩ := List.mem_filter.mp hz
      exact List.mem_filter.mpr ⟨hz, by simpa using (of_decide_eq_true hzx).trans hlt⟩
  have hcons : (x :: l.filter (· < x)).Nodup := List.nodup_cons.mpr ⟨by simp, hnodup.filter _⟩
  have hle := (List.subperm_of_subset hcons hsub).length_le
  rwa [List.length_cons, ← List.countP_eq_length_filter, ← List.countP_eq_length_filter] at hle

/-- Of distinct elements each place is taken once. -/
theorem exists_unique_place (hnodup : l.Nodup) {r : Nat} (hr : r < l.length) :
    ∃! x, x ∈ l ∧ (l.countP fun z => z < x) = r := by
  have hinj : ∀ x ∈ l, ∀ y ∈ l, (l.countP fun z => z < x) = (l.countP fun z => z < y) → x = y := by
    intro x hx y hy heq
    rcases lt_trichotomy x y with hlt | rfl | hlt
    · exact absurd heq (countP_lt_countP hnodup hx hlt).ne
    · rfl
    · exact absurd heq (countP_lt_countP hnodup hy hlt).ne'
  have hsub : l.map (fun x => l.countP fun z => z < x) ⊆ List.range l.length := by
    intro r hr
    obtain ⟨x, hx, rfl⟩ := List.mem_map.mp hr
    exact List.mem_range.mpr (List.countP_lt_length_iff.mpr ⟨x, hx, by simp⟩)
  have hperm := (List.subperm_of_subset (hnodup.map_on hinj) hsub).perm_of_length_le (by simp)
  obtain ⟨x, hx, hplace⟩ := List.mem_map.mp (hperm.mem_iff.mpr (List.mem_range.mpr hr))
  exact ⟨x, ⟨hx, hplace⟩, fun y hy => hinj y hy.1 x hx (hy.2.trans hplace.symm)⟩

end place

/-! ## The nodes -/

/-- Where a node is in `updateHeartBeatInternal`. Its beat is seen by others from the commit on. -/
inductive BeatPosition where
  | idle
  | beaten (time : Nat)
  /-- it has read the hosts, with its own beat -/
  | placed (time : Nat) (place : Option (Nat × Nat))
  /-- its segment is the first one -/
  | deleting
  /-- it has divided by a count of zero -/
  | dead
  deriving DecidableEq

structure BeatNode where
  node : Node
  position : BeatPosition := .idle
  /-- what it has stored since the beginning of the run or its last start -/
  segment : Option HashSegment := none

inductive BeatEvent where
  | beat (i : Nat)
  | read (i : Nat)
  | commit (i : Nat)
  | delete (i : Nat)
  /-- a statement fails, and the transaction is rolled back -/
  | abort (i : Nat)
  | restart (i : Nat)
  /-- any other statement; time passes with `tick` -/
  | other (s : Stmt)

/-- The host that beats for the service. -/
def Stmt.beats? (serviceName : String) : Stmt → Option String
  | .updateBeat host service => if service = serviceName then some host else none
  | _ => none

structure Membership where
  db : Db
  serviceName : String
  nodes : List BeatNode

namespace BeatNode

variable (serviceName : String) (db : Db) (n : BeatNode)

def Holds (v : Nat) : Prop := ∃ segment ∈ n.segment, segment.Holds v

/-- `isLeadNode`. -/
def Leads : Prop := ∃ segment ∈ n.segment, segment.index = 0

/-- It does not depend on an earlier read. -/
def unread : Bool :=
  match n.position with
  | .placed _ _ => false
  | .dead => false
  | _ => true

/-- The time of the beat of a transaction that has not read the hosts yet. -/
def beaten? : Option Nat :=
  match n.position with
  | .beaten time => some time
  | _ => none

def beat : BeatNode :=
  match n.position with
  | .idle => { n with position := .beaten db.now }
  | _ => n

/-- The transaction sees its own beat. -/
def view (time : Nat) : Db :=
  { db with hosts := upsertBeat n.node.hostname serviceName time db.hosts }

def read : BeatNode :=
  match n.position with
  | .beaten time => { n with position := .placed time ((n.view serviceName db time).hostIndex n.node serviceName) }
  | _ => n

def commit : Db × BeatNode :=
  match n.position with
  | .placed time none => (n.view serviceName db time, { n with position := .dead })
  | .placed time (some (index, count)) =>
      (n.view serviceName db time,
        { n with
          segment := some (.of index count)
          position := if (HashSegment.of index count).start = 0 then .deleting else .idle })
  | _ => (db, n)

def delete : Db × BeatNode :=
  match n.position with
  | .deleting => ((Stmt.exec .deleteOldHosts db).2, { n with position := .idle })
  | _ => (db, n)

def abort : BeatNode :=
  match n.position with
  | .dead => n
  | _ => { n with position := .idle }

def restart : BeatNode := { n with position := .idle, segment := none }

end BeatNode

namespace Membership

/-- The node acts on the database. -/
def act (s : Membership) (i : Nat) (f : BeatNode → Db × BeatNode) : Membership :=
  match s.nodes[i]? with
  | none => s
  | some n => { s with db := (f n).1, nodes := s.nodes.set i (f n).2 }

def step (s : Membership) : BeatEvent → Membership
  | .beat i => s.act i fun n => (s.db, n.beat s.db)
  | .read i => s.act i fun n => (s.db, n.read s.serviceName s.db)
  | .commit i => s.act i fun n => n.commit s.serviceName s.db
  | .delete i => s.act i fun n => n.delete s.db
  | .abort i => s.act i fun n => (s.db, n.abort)
  | .restart i => s.act i fun n => (s.db, n.restart)
  | .other u => { s with db := (u.exec s.db).2 }

def hostnames (s : Membership) : List String :=
  s.nodes.map (·.node.hostname)

/-- The node sees the host alive. -/
def Sees (s : Membership) (n : BeatNode) (db : Db) (host : String) : Prop :=
  ∃ h ∈ db.hosts, h.hostname = host ∧ h.isAlive n.node.heartBeatGraceInterval db.now s.serviceName = true

instance (s : Membership) (n : BeatNode) (db : Db) (host : String) : Decidable (s.Sees n db host) :=
  inferInstanceAs (Decidable (∃ h ∈ db.hosts, _))

/-- A node reads the hosts while the beats of all nodes are recent enough for it, and nobody else beats for the service. -/
def Timely (s : Membership) : BeatEvent → Prop
  | .read i => ∀ n ∈ s.nodes[i]?, ∀ time ∈ n.beaten?, ∀ host ∈ s.hostnames,
      s.Sees n (n.view s.serviceName s.db time) host
  | .other u => ∀ host ∈ u.beats? s.serviceName, host ∈ s.hostnames
  | _ => True

instance (s : Membership) : ∀ e, Decidable (s.Timely e)
  | .read i => inferInstanceAs (Decidable (∀ n ∈ s.nodes[i]?, _))
  | .other u => inferInstanceAs (Decidable (∀ host ∈ u.beats? s.serviceName, _))
  | .beat _ => .isTrue trivial
  | .commit _ => .isTrue trivial
  | .delete _ => .isTrue trivial
  | .abort _ => .isTrue trivial
  | .restart _ => .isTrue trivial

/-- The place of a node among all, by name. -/
def rank (s : Membership) (n : BeatNode) : Nat :=
  s.hostnames.countP fun host => host < n.node.hostname

/-- What the node has read is its place, and so is what it has stored. -/
structure Placed (s : Membership) (n : BeatNode) : Prop where
  alive : n.position ≠ .dead
  read : ∀ time place, n.position = .placed time place → place = some (s.rank n, s.nodes.length)
  stored : ∀ segment, n.segment = some segment → segment = .of (s.rank n) s.nodes.length

/-- The hosts have a key, and none but those of the nodes is alive. -/
structure Exclusive (s : Membership) (db : Db) : Prop where
  keys : (db.hosts.map fun h => (h.hostname, h.serviceName)).Nodup
  silent : ∀ n ∈ s.nodes, ∀ h ∈ db.hosts,
    h.isAlive n.node.heartBeatGraceInterval db.now s.serviceName = true → h.hostname ∈ s.hostnames

structure Settled (s : Membership) : Prop where
  names : s.hostnames.Nodup
  hosts : s.Exclusive s.db
  placed : ∀ n ∈ s.nodes, s.Placed n

/-! ## What a node reads -/

variable {s : Membership} {n : BeatNode} {db : Db}

/-- The living hosts of the service are the nodes. -/
theorem alive_perm (hs : s.Exclusive db) (hnames : s.hostnames.Nodup) (hn : n ∈ s.nodes)
    (hsees : ∀ host ∈ s.hostnames, s.Sees n db host) :
    ((db.hosts.filter (·.isAlive n.node.heartBeatGraceInterval db.now s.serviceName)).map (·.hostname)).Perm
      s.hostnames := by
  refine (List.perm_ext_iff_of_nodup ?_ hnames).mpr fun host => ?_
  · have hkeys := hs.keys.sublist ((List.filter_sublist
      (p := fun h : HostRow => h.isAlive n.node.heartBeatGraceInterval db.now s.serviceName)).map _)
    have hservice : ∀ h ∈ db.hosts.filter (·.isAlive n.node.heartBeatGraceInterval db.now s.serviceName),
        (h.hostname, h.serviceName) = (h.hostname, s.serviceName) := by
      intro h hh
      have halive := (List.mem_filter.mp hh).2
      simp only [HostRow.isAlive, Bool.and_eq_true, decide_eq_true_eq] at halive
      rw [halive.2]
    have hmap : (db.hosts.filter (·.isAlive n.node.heartBeatGraceInterval db.now s.serviceName)).map
        (fun h => (h.hostname, h.serviceName)) =
        ((db.hosts.filter (·.isAlive n.node.heartBeatGraceInterval db.now s.serviceName)).map (·.hostname)).map
          fun host => (host, s.serviceName) := by
      rw [List.map_map]
      exact List.map_congr_left hservice
    rw [hmap] at hkeys
    exact hkeys.of_map
  · simp only [List.mem_map, List.mem_filter]
    constructor
    · rintro ⟨h, ⟨hh, halive⟩, rfl⟩
      exact hs.silent n hn h hh halive
    · intro hhost
      obtain ⟨h, hh, rfl, halive⟩ := hsees host hhost
      exact ⟨h, ⟨hh, halive⟩, rfl⟩

theorem hostIndex_eq (hs : s.Exclusive db) (hnames : s.hostnames.Nodup) (hn : n ∈ s.nodes)
    (hsees : ∀ host ∈ s.hostnames, s.Sees n db host) :
    db.hostIndex n.node s.serviceName = some (s.rank n, s.nodes.length) := by
  have hperm := alive_perm hs hnames hn hsees
  have hlength : (db.hosts.filter (·.isAlive n.node.heartBeatGraceInterval db.now s.serviceName)).length =
      s.nodes.length := by
    simpa [hostnames] using hperm.length_eq
  have hrank := hperm.countP_eq fun host => host < n.node.hostname
  rw [List.countP_map] at hrank
  obtain ⟨h, hh, hhost, halive⟩ := hsees n.node.hostname (List.mem_map_of_mem hn)
  have hany : ((db.hosts.filter (·.isAlive n.node.heartBeatGraceInterval db.now s.serviceName)).any
      fun h => h.hostname = n.node.hostname) = true :=
    List.any_eq_true.mpr ⟨h, List.mem_filter.mpr ⟨hh, halive⟩, by simpa using hhost⟩
  simp only [Db.hostIndex, hany, if_true, hlength]
  exact congrArg (fun r => some (r, s.nodes.length)) hrank

/-! ## Statements -/

theorem Exclusive.upsertBeat {host serviceName : String} {time : Nat} (h : s.Exclusive db)
    (hmem : serviceName = s.serviceName → host ∈ s.hostnames) :
    s.Exclusive { db with hosts := MySql.upsertBeat host serviceName time db.hosts } := by
  constructor
  · change ((MySql.upsertBeat host serviceName time db.hosts).map _).Nodup
    unfold MySql.upsertBeat
    split
    · rw [List.map_map]
      refine Eq.mpr (congrArg List.Nodup (List.map_congr_left fun row _ => ?_)) h.keys
      simp only [Function.comp_apply]
      split <;> rfl
    · rename_i hnone
      refine List.nodup_cons.mpr ⟨fun hkey => hnone ?_, h.keys⟩
      obtain ⟨row, hrow, hkey⟩ := List.mem_map.mp hkey
      obtain ⟨hhost, hservice⟩ := Prod.mk.inj hkey
      exact List.any_eq_true.mpr ⟨row, hrow, by simp [hhost, hservice]⟩
  · intro n hn row hrow halive
    change row ∈ MySql.upsertBeat host serviceName time db.hosts at hrow
    change row.isAlive n.node.heartBeatGraceInterval db.now s.serviceName = true at halive
    have hservice : row.serviceName = s.serviceName := by
      simp only [HostRow.isAlive, Bool.and_eq_true, decide_eq_true_eq] at halive
      exact halive.2
    unfold MySql.upsertBeat at hrow
    split at hrow
    · obtain ⟨old, hold, rfl⟩ := List.mem_map.mp hrow
      split at hservice
      · rename_i hkey
        rw [if_pos hkey, hkey.1]
        exact hmem (hkey.2.symm.trans hservice)
      · rename_i hkey
        rw [if_neg hkey] at halive ⊢
        exact h.silent n hn old hold halive
    · rcases List.mem_cons.mp hrow with rfl | hrow
      · exact hmem hservice
      · exact h.silent n hn row hrow halive

theorem Exclusive.deleteOldHosts (h : s.Exclusive db) : s.Exclusive (Stmt.exec .deleteOldHosts db).2 :=
  ⟨h.keys.sublist (List.filter_sublist.map _), fun n hn row hrow => h.silent n hn row (List.mem_filter.mp hrow).1⟩

theorem isAlive_of_later {grace now later : Nat} {serviceName : String} {row : HostRow} (hle : now ≤ later)
    (halive : row.isAlive grace later serviceName = true) : row.isAlive grace now serviceName = true := by
  simp only [HostRow.isAlive, Bool.and_eq_true, Option.any_eq_true] at halive ⊢
  obtain ⟨⟨time, htime, hbeat⟩, hservice⟩ := halive
  refine ⟨⟨time, htime, ?_⟩, hservice⟩
  rw [decide_eq_true_eq] at hbeat ⊢
  omega

/-- Silent hosts stay silent. -/
theorem Exclusive.exec {u : Stmt} (h : s.Exclusive db) (hu : s.Timely (.other u)) : s.Exclusive (u.exec db).2 := by
  cases u with
  | updateBeat host serviceName => exact h.upsertBeat fun hservice => hu host (by simp [Stmt.beats?, hservice])
  | deleteOldHosts => exact h.deleteOldHosts
  | tick d =>
      exact ⟨h.keys, fun n hn row hrow halive => h.silent n hn row hrow (isAlive_of_later (Nat.le_add_right _ d) halive)⟩
  | _ => exact ⟨h.keys, h.silent⟩

/-! ## Steps -/

theorem hostnames_set {i : Nat} {n' : BeatNode} (hi : s.nodes[i]? = some n) (hnode : n'.node = n.node) :
    (s.nodes.set i n').map (·.node.hostname) = s.hostnames := by
  rw [List.map_set, hnode]
  refine List.ext_getElem? fun j => ?_
  rw [List.getElem?_set]
  split
  · rename_i hij
    subst hij
    obtain ⟨hlt, rfl⟩ := List.getElem?_eq_some_iff.mp hi
    simp [hostnames, hlt]
  · rfl

theorem Settled.act {i : Nat} {f : BeatNode → Db × BeatNode} (hs : s.Settled)
    (hf : ∀ n, s.nodes[i]? = some n → n ∈ s.nodes → s.Placed n →
      (f n).2.node = n.node ∧ s.Exclusive (f n).1 ∧ s.Placed (f n).2) : (s.act i f).Settled := by
  unfold Membership.act
  split
  · exact hs
  · rename_i n hi
    have hmem := List.mem_of_getElem? hi
    obtain ⟨hnode, hexcl, hplaced⟩ := hf n hi hmem (hs.placed n hmem)
    have hnames : Membership.hostnames { s with db := (f n).1, nodes := s.nodes.set i (f n).2 } = s.hostnames :=
      hostnames_set hi hnode
    refine ⟨hnames ▸ hs.names, ⟨hexcl.keys, fun m hm row hrow halive => ?_⟩, fun m hm => ?_⟩
    · rw [hnames]
      rcases List.mem_or_eq_of_mem_set hm with hm | rfl
      · exact hexcl.silent m hm row hrow halive
      · rw [hnode] at halive
        exact hexcl.silent n hmem row hrow halive
    · have hm : s.Placed m := by
        rcases List.mem_or_eq_of_mem_set hm with hm | rfl
        · exact hs.placed m hm
        · exact hplaced
      refine ⟨hm.alive, ?_, ?_⟩
      · simpa only [Membership.rank, hnames, List.length_set] using hm.read
      · simpa only [Membership.rank, hnames, List.length_set] using hm.stored

/-- Without a read that it depends on, a node is judged by its segment. -/
theorem placed_of_unread (hunread : n.unread = true)
    (hstored : ∀ segment, n.segment = some segment → segment = .of (s.rank n) s.nodes.length) : s.Placed n := by
  refine ⟨fun hdead => ?_, fun time place hplaced => ?_, hstored⟩
  · simp [BeatNode.unread, hdead] at hunread
  · simp [BeatNode.unread, hplaced] at hunread

theorem Settled.read {i : Nat} (hs : s.Settled) (ht : s.Timely (.read i)) : (s.step (.read i)).Settled := by
  refine hs.act fun n hi hmem hn => ?_
  unfold BeatNode.read
  split
  · rename_i time hposition
    refine ⟨rfl, hs.hosts, ⟨nofun, ?_, hn.stored⟩⟩
    rintro time' place ⟨⟩
    exact hostIndex_eq (hs.hosts.upsertBeat fun _ => List.mem_map_of_mem hmem) hs.names hmem
      (ht n hi time (by simp [BeatNode.beaten?, hposition]))
  · exact ⟨rfl, hs.hosts, hn⟩

theorem Settled.commit {i : Nat} (hs : s.Settled) : (s.step (.commit i)).Settled := by
  refine hs.act fun n hi hmem hn => ?_
  have hview : ∀ time, s.Exclusive (n.view s.serviceName s.db time) :=
    fun time => hs.hosts.upsertBeat fun _ => List.mem_map_of_mem hmem
  unfold BeatNode.commit
  split
  · rename_i time hposition
    exact absurd (hn.read time none hposition) nofun
  · rename_i time index count hposition
    obtain ⟨rfl, rfl⟩ := Prod.mk.inj (Option.some.inj (hn.read time _ hposition))
    refine ⟨rfl, hview time, ⟨?_, ?_, ?_⟩⟩
    · dsimp only
      split <;> nofun
    · dsimp only
      split <;> nofun
    · rintro segment ⟨⟩
      rfl
  · exact ⟨rfl, hs.hosts, hn⟩

theorem Settled.step {e : BeatEvent} (hs : s.Settled) (ht : s.Timely e) : (s.step e).Settled := by
  cases e with
  | beat i =>
      refine hs.act fun n _ _ hn => ?_
      unfold BeatNode.beat
      split
      · exact ⟨rfl, hs.hosts, placed_of_unread rfl hn.stored⟩
      · exact ⟨rfl, hs.hosts, hn⟩
  | read i => exact hs.read ht
  | commit i => exact hs.commit
  | delete i =>
      refine hs.act fun n _ _ hn => ?_
      unfold BeatNode.delete
      split
      · exact ⟨rfl, hs.hosts.deleteOldHosts, placed_of_unread rfl hn.stored⟩
      · exact ⟨rfl, hs.hosts, hn⟩
  | abort i =>
      refine hs.act fun n _ _ hn => ?_
      unfold BeatNode.abort
      split
      · exact ⟨rfl, hs.hosts, hn⟩
      · exact ⟨rfl, hs.hosts, placed_of_unread rfl hn.stored⟩
  | restart i => exact hs.act fun n _ _ _ => ⟨rfl, hs.hosts, placed_of_unread rfl nofun⟩
  | other u =>
      have hhosts := hs.hosts.exec ht
      exact ⟨hs.names, ⟨hhosts.keys, hhosts.silent⟩, fun m hm => ⟨(hs.placed m hm).alive, (hs.placed m hm).read,
        (hs.placed m hm).stored⟩⟩

theorem step_length (s : Membership) (e : BeatEvent) : (s.step e).nodes.length = s.nodes.length := by
  have hact : ∀ i f, (s.act i f).nodes.length = s.nodes.length := by
    intro i f
    unfold Membership.act
    split
    · rfl
    · exact List.length_set
  cases e with
  | other u => rfl
  | _ => exact hact _ _

/-! ## Runs -/

theorem Settled.rank_unique (hs : s.Settled) {r : Nat} (hr : r < s.nodes.length) : ∃! n, n ∈ s.nodes ∧ s.rank n = r := by
  have hr' : r < s.hostnames.length := by simpa [hostnames] using hr
  obtain ⟨host, ⟨hhost, hplace⟩, huniq⟩ := exists_unique_place hs.names hr'
  obtain ⟨n, hn, rfl⟩ := List.mem_map.mp hhost
  refine ⟨n, ⟨hn, hplace⟩, fun m hm => ?_⟩
  exact List.inj_on_of_nodup_map hs.names hm.1 hn (huniq _ ⟨List.mem_map_of_mem hm.1, hm.2⟩)

theorem rank_lt (hn : n ∈ s.nodes) : s.rank n < s.nodes.length := by
  have hlt : s.rank n < s.hostnames.length :=
    List.countP_lt_length_iff.mpr ⟨n.node.hostname, List.mem_map_of_mem hn, by simp⟩
  simpa [hostnames] using hlt

theorem Settled.holds_iff (hs : s.Settled) (hmax : s.nodes.length ≤ 65535) (hn : n ∈ s.nodes) (v : Nat) :
    n.Holds v ↔ n.segment.isSome ∧ v ≤ 65535 ∧ s.rank n = min (v / (65535 / s.nodes.length)) (s.nodes.length - 1) := by
  have hpos : 1 ≤ s.nodes.length := List.length_pos_of_mem hn
  cases hsegment : n.segment with
  | none => simp [BeatNode.Holds, hsegment]
  | some segment =>
      obtain rfl := (hs.placed n hn).stored segment hsegment
      simp [BeatNode.Holds, hsegment, HashSegment.holds_iff hpos hmax (rank_lt hn)]

theorem Settled.leads_iff (hs : s.Settled) (hn : n ∈ s.nodes) : n.Leads ↔ n.segment.isSome ∧ s.rank n = 0 := by
  cases hsegment : n.segment with
  | none => simp [BeatNode.Leads, hsegment]
  | some segment =>
      obtain rfl := (hs.placed n hn).stored segment hsegment
      simp [BeatNode.Leads, hsegment, HashSegment.of]

/-- Two nodes never hold the same value. -/
theorem Settled.disjoint (hs : s.Settled) (hmax : s.nodes.length ≤ 65535) {m : BeatNode} {v : Nat} (hn : n ∈ s.nodes)
    (hm : m ∈ s.nodes) (hnv : n.Holds v) (hmv : m.Holds v) : n = m := by
  obtain ⟨-, -, hrank⟩ := (hs.holds_iff hmax hn v).mp hnv
  obtain ⟨-, -, hrank'⟩ := (hs.holds_iff hmax hm v).mp hmv
  exact (hs.rank_unique (rank_lt hn)).unique ⟨hn, rfl⟩ ⟨hm, hrank'.trans hrank.symm⟩

/-- Once all nodes have read the hosts, each value is held. -/
theorem Settled.covers (hs : s.Settled) (hmax : s.nodes.length ≤ 65535) (hne : s.nodes ≠ [])
    (hall : ∀ n ∈ s.nodes, n.segment.isSome) {v : Nat} (hv : v ≤ 65535) : ∃ n ∈ s.nodes, n.Holds v := by
  have hpos : 1 ≤ s.nodes.length := List.length_pos_iff.mpr hne
  obtain ⟨n, ⟨hn, hrank⟩, -⟩ := hs.rank_unique (r := min (v / (65535 / s.nodes.length)) (s.nodes.length - 1)) (by omega)
  exact ⟨n, hn, (hs.holds_iff hmax hn v).mpr ⟨hall n hn, hv, hrank⟩⟩

theorem Settled.lead_unique (hs : s.Settled) (hne : s.nodes ≠ []) (hall : ∀ n ∈ s.nodes, n.segment.isSome) :
    ∃! n, n ∈ s.nodes ∧ n.Leads := by
  obtain ⟨n, ⟨hn, hrank⟩, huniq⟩ := hs.rank_unique (List.length_pos_iff.mpr hne)
  exact ⟨n, ⟨hn, (hs.leads_iff hn).mpr ⟨hall n hn, hrank⟩⟩,
    fun m hm => huniq m ⟨hm.1, ((hs.leads_iff hm.1).mp hm.2).2⟩⟩

/-- From any state in which the rest is silent and no node is between its read and its commit: no node dies, two nodes
never hold the same value, and once each has stored a segment every value is held and one node leads. -/
theorem segments_stabilise (s : Membership) (es : List BeatEvent) (hnames : s.hostnames.Nodup)
    (hhosts : s.Exclusive s.db) (hmax : s.nodes.length ≤ 65535)
    (hstart : ∀ n ∈ s.nodes, n.unread = true ∧ n.segment = none) (hes : Meets step Timely s es) :
    (∀ n ∈ (run step s es).nodes, n.position ≠ .dead) ∧
    (∀ v, ∀ n ∈ (run step s es).nodes, ∀ m ∈ (run step s es).nodes, n.Holds v → m.Holds v → n = m) ∧
    (s.nodes ≠ [] → (∀ n ∈ (run step s es).nodes, n.segment.isSome) →
      (∀ v ≤ 65535, ∃ n ∈ (run step s es).nodes, n.Holds v) ∧ ∃! n, n ∈ (run step s es).nodes ∧ n.Leads) := by
  have hfirst : s.Settled := by
    refine ⟨hnames, hhosts, fun n hn => ?_⟩
    obtain ⟨hunread, hsegment⟩ := hstart n hn
    exact placed_of_unread hunread (by simp [hsegment])
  obtain ⟨hs, hlength⟩ := hes.invariant (I := fun s' => s'.Settled ∧ s'.nodes.length = s.nodes.length)
    (fun s' e he h => ⟨h.1.step he, (step_length s' e).trans h.2⟩) ⟨hfirst, rfl⟩
  rw [← hlength] at hmax
  refine ⟨fun n hn => (hs.placed n hn).alive, fun v n hn m hm => hs.disjoint hmax hn hm, fun hne hall => ?_⟩
  have hne' : (run step s es).nodes ≠ [] := by
    rw [← List.length_pos_iff, hlength]
    exact List.length_pos_iff.mpr hne
  exact ⟨fun v hv => hs.covers hmax hne' hall hv, hs.lead_unique hne' hall⟩

/-- Two nodes, one of them in the place of a third one that has died. -/
def twoNodes : Membership :=
  { db :=
      { now := 1000
        hosts :=
          [{ hostname := "a", serviceName := "fts_server", beat := some 990 },
            { hostname := "b", serviceName := "fts_server", beat := some 980 },
            { hostname := "c", serviceName := "fts_server", beat := some 100 }] }
    serviceName := "fts_server"
    nodes := [{ node := { hostname := "a" } }, { node := { hostname := "b" } }] }

theorem segments_stabilise_two :
    ∃! n, n ∈ (run step twoNodes
      [.beat 0, .beat 1, .read 1, .other (.tick 5), .read 0, .commit 0, .commit 1, .delete 0]).nodes ∧ n.Leads :=
  ((segments_stabilise twoNodes
    [.beat 0, .beat 1, .read 1, .other (.tick 5), .read 0, .commit 0, .commit 1, .delete 0] (by decide)
    ⟨by decide, by decide⟩ (by decide) (by decide) (by decide)).2.2 (by decide) (by decide)).2

end Membership

end Fts3.MySql
