import Fts3.Sql.Pool
import Mathlib.Data.List.DropRight
import Fts3.MySql.Statement

/-!
# Operations

An operation of `MySqlAPI` is a program of statements. The sessions run at `READ COMMITTED`
(`MySqlAPI::init`), so every `SELECT` reads the rows as they are when it is executed.
-/

namespace Fts3.MySql

open Fts3.Sql

inductive Count where
  | inJob
  | notCanceled
  | finished
  | staging
  | archiving
  | notCanceledNorFailed
  deriving DecidableEq, Repr

/-- The names of the queries that a run is asked about; `rows` is any other one. A name carries what its query
is about, and `currentStateAgain` also what the first execution of `stmt1` had read. -/
inductive Sel where
  | rows
  | storedState (fileId : Nat)
  | currentState (jobId : String) (state : FileState)
  | currentStateAgain (jobId : String) (state : FileState) (old : Option JobState)
  | count (jobId : String) (c : Count)
  | activeCount (sourceSe destSe : String)
  deriving DecidableEq, Repr

abbrev Op := Proc Db Sel Stmt

/-! ## The texts of the activities -/

/-- A text without a quote and without a backslash stands for itself between quotes. -/
def Plain (a : String) : Prop := ∀ c ∈ a.toList, c.toNat ≠ 39 ∧ c.toNat ≠ 92

instance (a : String) : Decidable (Plain a) := List.decidableBAll (fun c : Char => c.toNat ≠ 39 ∧ c.toNat ≠ 92) a.toList

/-- The column `t_file.activity` in a query. Two texts are equal when they have the same key, which does not depend on the
case. `readsList` is what the database makes of `IN ('', 'a', 'b')` when the names are put between the quotes as they are:
the rows for which it holds, or `none` if it rejects the query. -/
structure ActivityColumn where
  key : String → String
  key_toLower : ∀ a, key a.toLower = key a
  readsList : List String → Option (FileRow → Bool)
  readsList_plain : ∀ names, (∀ a ∈ names, Plain a) →
    readsList names = some fun r => r.activity.any fun a => key a ∈ ("" :: names).map key

namespace ActivityColumn

/-- Neither the case nor blanks at the end count. -/
def paddedKey (a : String) : String := String.ofList (a.toLower.toList.rdropWhile fun c => c = ' ')

theorem toLower_toLower_char (c : Char) : c.toLower.toLower = c.toLower := by
  by_cases hupper : c.val ≥ 'A'.val ∧ c.val ≤ 'Z'.val
  · have hval : c.toLower.val = c.val + ('a'.val - 'A'.val) := congrArg Char.val (dif_pos hupper)
    have hlower : ¬(c.toLower.val ≥ 'A'.val ∧ c.toLower.val ≤ 'Z'.val) := by
      have hA : 'A'.val.toNat = 65 := rfl
      have hZ : 'Z'.val.toNat = 90 := rfl
      have hshift : ('a'.val - 'A'.val).toNat = 32 := rfl
      rw [hval]
      simp only [ge_iff_le, UInt32.le_iff_toNat_le, UInt32.toNat_add] at hupper ⊢
      omega
    exact dif_neg hlower
  · have hsame : c.toLower = c := dif_neg hupper
    rw [hsame, hsame]

theorem toLower_toLower (a : String) : a.toLower.toLower = a.toLower := by
  change (a.map Char.toLower).map Char.toLower = a.map Char.toLower
  rw [String.map_map]
  exact congrArg (String.map · a) (funext toLower_toLower_char)

/-- `latin1_swedish_ci` on texts of plain ASCII characters; a query with any other text in the list is rejected. -/
def latin1 : ActivityColumn where
  key := paddedKey
  key_toLower a := by rw [paddedKey, paddedKey, toLower_toLower]
  readsList names :=
    if ∀ a ∈ names, Plain a then some fun r => r.activity.any fun a => paddedKey a ∈ ("" :: names).map paddedKey else none
  readsList_plain _ h := if_pos h

end ActivityColumn

/-- What an operation takes from its server: the host name, the hash segment, the configuration, the
order in which the database lists the rows of a `SELECT DISTINCT`, how it compares activities, and the contents of a local
`Job::JobType` that no `SELECT` has written. -/
structure Node where
  hostname : String
  hashStart : Nat := 0
  hashEnd : Nat := 65535
  cancelUnusedMultihopFiles : Bool := false
  heartBeatGraceInterval : Nat := 120
  useFixedJobPriority : Int := 0
  stagingBulkSize : Int := 200
  stagingWaitingFactor : Nat := 300
  stagingConcurrentRequests : Int := 1000
  defaultBringOnlineTimeout : Int := 604800
  defaultCopyPinLifetime : Int := 604800
  listLinks : List (String × String) → List (String × String) := id
  activity : ActivityColumn := .latin1
  uninitialized : JobType := .regular

def select {β : Type} (q : Sel) (f : Db → β) : Op β := Proc.query q f

def updateFile (u : FileUpdate) : Op Nat := Proc.execute (.file u)

def updateJob (u : JobUpdate) : Op Nat := Proc.execute (.job u)

def updateDm (u : DmUpdate) : Op Nat := Proc.execute (.dm u)

def execute (s : Stmt) : Op Nat := Proc.execute s

def beginTx : Op Unit := Proc.control .begin

def commit : Op Unit := Proc.control .commit

def rollback : Op Unit := Proc.control .rollback

section bind

variable {β γ : Type}

@[simp] theorem select_bind (q : Sel) (g : Db → β) (f : β → Op γ) :
    (select q g).bind f = .select q fun db => f (g db) := rfl

@[simp] theorem updateFile_bind (u : FileUpdate) (f : Nat → Op γ) :
    (updateFile u).bind f = .update (.file u) f := rfl

@[simp] theorem updateJob_bind (u : JobUpdate) (f : Nat → Op γ) :
    (updateJob u).bind f = .update (.job u) f := rfl

@[simp] theorem updateDm_bind (u : DmUpdate) (f : Nat → Op γ) :
    (updateDm u).bind f = .update (.dm u) f := rfl

@[simp] theorem execute_bind (s : Stmt) (f : Nat → Op γ) : (execute s).bind f = .update s f := rfl

@[simp] theorem beginTx_bind (f : Unit → Op γ) : beginTx.bind f = .tx .begin (f ()) := rfl

@[simp] theorem commit_bind (f : Unit → Op γ) : commit.bind f = .tx .commit (f ()) := rfl

@[simp] theorem rollback_bind (f : Unit → Op γ) : rollback.bind f = .tx .rollback (f ()) := rfl

end bind

def Op.alone {β : Type} (p : Op β) (db : Db) : Db := (p.run Stmt.exec db).2

end Fts3.MySql
