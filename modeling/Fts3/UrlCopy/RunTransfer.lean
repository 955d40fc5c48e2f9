import Fts3.UrlCopy.DestFile
import Fts3.UrlCopy.LegacyReporter
import Fts3.UrlCopy.UrlCopyProcess

/-!
# Running a transfer

What `run` does with a transfer, for all that the calls to gfal2 may come to. Exceptions are recorded as the error of the
transfer.
-/

namespace Fts3.UrlCopy

/-- What a call to gfal2 comes to. -/
inductive Outcome (α : Type)
  | ok (a : α)
  | gfal2Exception (code : Int) (what : Text)
  /-- another `std::exception` -/
  | exception (what : Text)
  | unknown
  deriving Repr, DecidableEq

inductive Gfal2Call
  | sourceStat
  | destinationStat
  | copy
  | releaseFile
  | finalStat
  deriving Repr, DecidableEq

/-- The calls of `setupTransferConfig`. Only the exception of `setChecksum` is caught there; of the others, before it and
after it, there is the text of the one that throws, if any. -/
structure SetupCalls where
  before : Option Text := none
  setChecksum : Option (Int × Text) := none
  after : Option Text := none

structure Calls where
  setup : SetupCalls := {}
  sourceStat : Outcome UInt64
  destinationStat : Outcome Unit
  /-- what `createDestFileReport` returns; there is none when it throws an exception -/
  report : Option DestFile := none
  copy : Outcome Unit
  timeoutExpired : Bool := false
  /-- the code of the exception of `releaseFile` -/
  releaseFile : Option Int := none
  finalStat : Outcome UInt64

inductive Thrown
  | urlCopyError (e : UrlCopyError)
  | exception (what : Text)
  | unknown
  deriving Repr, DecidableEq

/-! ## The errors of the calls -/

def checksumScope : ChecksumMode → ErrorScope
  | .source => .source
  | .target => .destination
  | .none | .both => .transfer

def setupTransferConfig (t : Transfer) (c : SetupCalls) : Except Thrown Unit := do
  match c.before with
  | some what => throw (.exception what)
  | none => pure ()
  if t.checksumAlgorithm ≠ [] then
    match c.setChecksum with
    | some (code, what) => throw (.urlCopyError (.new (checksumScope t.checksumMode) .transferPreparation code what))
    | none => pure ()
  match c.after with
  | some what => throw (.exception what)
  | none => pure ()

def sourceError : Outcome UInt64 → Option Thrown
  | .ok _ => none
  | .gfal2Exception code what => some (.urlCopyError (.new .source .transferPreparation code what))
  | .exception what => some (.urlCopyError (.new .source .transferPreparation EINVAL what))
  | .unknown => some .unknown

/-- The destination must not exist. -/
def destinationError : Outcome Unit → Option Thrown
  | .ok _ => some (.urlCopyError (.new .destination .transferPreparation EEXIST
      "Destination file exists and overwrite is not enabled".toList))
  | .gfal2Exception code what =>
      if code ≠ ENOENT then some (.urlCopyError (.new .destination .transferPreparation code what)) else none
  | .exception what => some (.exception what)
  | .unknown => some .unknown

def copyError (timeoutExpired : Bool) : Outcome Unit → Option Thrown
  | .ok _ => none
  | .gfal2Exception code what =>
      some (.urlCopyError (.new .transfer .transfer (if timeoutExpired then ETIMEDOUT else code) what))
  | .exception what => some (.urlCopyError (.new .transfer .transfer EINVAL what))
  | .unknown => some .unknown

def sizeError (fileSize : UInt64) : Outcome UInt64 → Option Thrown
  | .ok destSize =>
      if destSize ≠ fileSize then
        some (.urlCopyError (.new .destination .transferFinalization EINVAL
          "Source and destination file size mismatch".toList))
      else none
  | .gfal2Exception code what => some (.urlCopyError (.new .destination .transferFinalization code what))
  | .exception what => some (.urlCopyError (.new .destination .transferFinalization EINVAL what))
  | .unknown => some .unknown

/-! ## The transfer -/

structure Running where
  transfer : RunningTransfer
  calls : List Gfal2Call := []

/-- Code that may throw an exception; what it has done to the transfer stays. -/
abbrev RunM := ExceptT Thrown (StateM Running)

namespace RunM

def call (c : Gfal2Call) : RunM Unit :=
  modify fun s => { s with calls := s.calls ++ [c] }

def update (f : RunningTransfer → RunningTransfer) : RunM Unit :=
  modify fun s => { s with transfer := f s.transfer }

def check : Option Thrown → RunM Unit
  | some e => throw e
  | none => pure ()

end RunM

open RunM

section run

variable (opts : UrlCopyOpts) (jsonCpp : JsonCpp) (c : Calls)

def statSource : RunM Unit := do
  call .sourceStat
  check (sourceError c.sourceStat)
  match c.sourceStat with
  | .ok size => update fun t => { t with fileSize := size }
  | _ => pure ()

/-- `DestFile::appendDestFileToFileMetadata`, in a `try` block. -/
def RunningTransfer.appendReport (report : Option DestFile) (t : RunningTransfer) : RunningTransfer :=
  match report.bind fun d => jsonCpp.appendDestFileToFileMetadata t.transfer.fileMetadata d.toJSON with
  | some fileMetadata => { t with transfer := { t.transfer with fileMetadata } }
  | none => t

def reportDestination : RunM Unit :=
  match c.destinationStat with
  | .ok _ => if opts.dstFileReport then update (·.appendReport jsonCpp c.report) else pure ()
  | _ => pure ()

def statDestination : RunM Unit := do
  call .destinationStat
  reportDestination opts jsonCpp c
  check (destinationError c.destinationStat)

def copy : RunM Unit := do
  call .copy
  check (copyError c.timeoutExpired c.copy)

def releaseFile : RunM Unit := do
  let s ← get
  if s.transfer.transfer.tokenBringOnline ≠ [] ∧ !opts.skipEvict then do
    call .releaseFile
    update fun t => { t with evictionRetc := match c.releaseFile with | some code => |code| | none => 0 }
  else pure ()

def validateSize : RunM Unit := do
  call .finalStat
  let s ← get
  check (sizeError s.transfer.fileSize c.finalStat)

/-- The first part of `runTransfer`: the size of the file, and whether it may be written. -/
def prepareTransfer : RunM Unit :=
  if opts.strictCopy then update fun t => { t with fileSize := .ofNat t.transfer.userFileSize }
  else do
    statSource c
    if !opts.overwrite then statDestination opts jsonCpp c else pure ()

def runTransfer : RunM Unit := do
  prepareTransfer opts jsonCpp c
  copy c
  releaseFile opts c
  if !opts.strictCopy then validateSize c else pure ()

/-- The error that the handlers of `run` record. -/
def Thrown.error : Thrown → UrlCopyError
  | .urlCopyError e => e
  | .exception what => .new .agent .transferService EINVAL what
  | .unknown => .new .agent .transferService EINVAL "Unknown exception".toList

def recorded : Except Thrown Unit → Option UrlCopyError
  | .error e => some e.error
  | .ok _ => none

/-- An exception of `runTransfer` is recorded, over what has been recorded before. -/
def handleThrown : Except Thrown Unit × Running → Running
  | (.ok _, s) => s
  | (.error e, s) => { s with transfer := { s.transfer with error := some e.error } }

/-- A turn of the loop of `run`, until the transfer is reported. Of the exceptions of the setup only the errors are caught;
the others leave `run`. -/
def runOne (t : Transfer) : Except Text Running :=
  match setupTransferConfig t c.setup with
  | .error (.exception what) => .error what
  | setup => .ok (handleThrown (runTransfer opts jsonCpp c { transfer := { transfer := t, error := recorded setup } }))

/-! ## The steps that must succeed -/

namespace Calls

/-- The size that `stat` returns. -/
def sourceSize : UInt64 :=
  match c.sourceStat with
  | .ok size => size
  | _ => 0

def sourceFailure : Option Thrown := if opts.strictCopy then none else sourceError c.sourceStat

def destinationFailure : Option Thrown :=
  if opts.strictCopy || opts.overwrite then none else destinationError c.destinationStat

def copyFailure : Option Thrown := copyError c.timeoutExpired c.copy

def sizeFailure : Option Thrown := if opts.strictCopy then none else sizeError c.sourceSize c.finalStat

/-- An exception that leaves `run` lets the process panic, which reports its text. -/
def setupFailure (t : Transfer) : Option UrlCopyError :=
  match setupTransferConfig t c.setup with
  | .ok _ => none
  | .error (.exception what) => some (.new .agent .transferService EINTR what)
  | .error e => some e.error

/-- The errors of the steps in their order, those that are not taken without one. -/
def failures (t : Transfer) : List (Option UrlCopyError) :=
  c.setupFailure t :: [c.sourceFailure opts, c.destinationFailure opts, c.copyFailure, c.sizeFailure opts].map
    (·.map Thrown.error)

end Calls

/-! ## What each part does -/

def raised : Option Thrown → Except Thrown Unit
  | some e => .error e
  | none => .ok ()

/-- From `I`, the code ends with this exception, or without one with `J`. It copies or not, and does not touch the error of
the transfer. -/
structure Part (I J : Running → Prop) (p : RunM Unit) (failure : Option Thrown) (copies : Bool) : Prop where
  result : ∀ s, I s → (p s).1 = raised failure
  copied : ∀ s, I s → (.copy ∈ (p s).2.calls ↔ .copy ∈ s.calls ∨ copies = true)
  error : ∀ s, I s → (p s).2.transfer.error = s.transfer.error
  next : failure = none → ∀ s, I s → J (p s).2

section part

variable {I J K : Running → Prop} {p q : RunM Unit} {f g : Option Thrown} {a b : Bool}

theorem bind_run (p q : RunM Unit) (s : Running) : (p >>= fun _ => q) s =
    match p s with
    | (.ok _, s') => q s'
    | (.error e, s') => (.error e, s') := by
  cases h : p s with
  | mk r s' =>
      have hbind : (p >>= fun _ => q) s = ExceptT.bindCont (fun _ => q) (p s).1 (p s).2 := rfl
      rw [hbind, h]
      cases r <;> rfl

theorem Part.bind (hp : Part I J p f a) (hq : Part J K q g b) :
    Part I K (p >>= fun _ => q) (f.or g) (a || b && f.isNone) := by
  have hrun : ∀ s, I s → (p >>= fun _ => q) s = if f = none then q (p s).2 else p s := by
    intro s hs
    have hresult := hp.result s hs
    rw [bind_run]
    cases hps : p s with
    | mk r s' =>
        rw [hps] at hresult
        cases f with
        | none =>
            cases hresult
            rfl
        | some e =>
            cases hresult
            rfl
  cases f with
  | none =>
      have hnext := hp.next rfl
      constructor
      · intro s hs
        rw [hrun s hs, if_pos rfl, hq.result _ (hnext s hs)]
        rfl
      · intro s hs
        rw [hrun s hs, if_pos rfl, hq.copied _ (hnext s hs), hp.copied s hs, or_assoc]
        simp
      · intro s hs
        rw [hrun s hs, if_pos rfl, hq.error _ (hnext s hs), hp.error s hs]
      · intro hg s hs
        rw [hrun s hs, if_pos rfl]
        exact hq.next hg _ (hnext s hs)
  | some e =>
      constructor
      · intro s hs
        rw [hrun s hs, if_neg (by simp)]
        exact hp.result s hs
      · intro s hs
        rw [hrun s hs, if_neg (by simp), hp.copied s hs]
        simp
      · intro s hs
        rw [hrun s hs, if_neg (by simp)]
        exact hp.error s hs
      · intro hg
        simp at hg

theorem part_pure : Part I I (pure ()) none false := by
  refine ⟨fun _ _ => rfl, fun s _ => ?_, fun _ _ => rfl, fun _ _ hs => hs⟩
  change .copy ∈ s.calls ↔ _
  simp

theorem part_check (f : Option Thrown) : Part I I (check f) f false := by
  cases f with
  | none => exact part_pure
  | some e =>
      refine ⟨fun _ _ => rfl, fun s _ => ?_, fun _ _ => rfl, fun h => by cases h⟩
      change .copy ∈ s.calls ↔ _
      simp

theorem Part.weaken {I' J' : Running → Prop} (hp : Part I J p f a) (hI : ∀ s, I' s → I s) (hJ : ∀ s, J s → J' s) :
    Part I' J' p f a :=
  ⟨fun s hs => hp.result s (hI s hs), fun s hs => hp.copied s (hI s hs), fun s hs => hp.error s (hI s hs),
    fun hf s hs => hJ _ (hp.next hf s (hI s hs))⟩

/-- What comes after an exception does not matter. -/
theorem part_throw (e : Thrown) (q : RunM Unit) : Part I J (check (some e) >>= fun _ => q) (some e) false := by
  refine ⟨fun _ _ => rfl, fun s _ => ?_, fun _ _ => rfl, fun h => by cases h⟩
  change .copy ∈ s.calls ↔ _
  simp

theorem part_call {k : Gfal2Call} (hI : ∀ s, I s → J { s with calls := s.calls ++ [k] }) :
    Part I J (call k) none (k = .copy) := by
  refine ⟨fun _ _ => rfl, fun s _ => ?_, fun _ _ => rfl, fun _ s hs => hI s hs⟩
  change .copy ∈ s.calls ++ [k] ↔ _
  simp [eq_comm]

theorem part_update {u : RunningTransfer → RunningTransfer} (hI : ∀ s, I s → J { s with transfer := u s.transfer })
    (hu : ∀ t, (u t).error = t.error) : Part I J (update u) none false := by
  refine ⟨fun _ _ => rfl, fun s _ => ?_, fun s _ => hu s.transfer, fun _ s hs => hI s hs⟩
  change .copy ∈ s.calls ↔ _
  simp

theorem part_get {p : Running → RunM Unit} (hp : ∀ s, I s → Part (fun s' => s' = s) J (p s) f a) :
    Part I J (do let s ← get; p s) f a :=
  ⟨fun s hs => (hp s hs).result s rfl, fun s hs => (hp s hs).copied s rfl, fun s hs => (hp s hs).error s rfl,
    fun hf s hs => (hp s hs).next hf s rfl⟩

end part

/-- The size of the file is the one of the source. -/
def SizeKnown (opts : UrlCopyOpts) (c : Calls) (s : Running) : Prop :=
  opts.strictCopy = false → s.transfer.fileSize = c.sourceSize

section parts

variable {opts : UrlCopyOpts} {jsonCpp : JsonCpp} {c : Calls}

theorem part_statSource : Part (fun _ => True) (SizeKnown opts c) (statSource c) (sourceError c.sourceStat) false := by
  have hcall : Part (fun _ => True) (fun _ => True) (call .sourceStat) none false := part_call fun _ _ => trivial
  unfold statSource
  cases h : c.sourceStat with
  | ok size =>
      have hsize : Part (fun _ => True) (SizeKnown opts c) (update fun t => { t with fileSize := size }) none false :=
        part_update (fun s _ => by simp [SizeKnown, Calls.sourceSize, h]) fun _ => rfl
      exact hcall.bind ((part_check none).bind hsize)
  | gfal2Exception code what => exact hcall.bind (part_throw _ _)
  | exception what => exact hcall.bind (part_throw _ _)
  | unknown => exact hcall.bind (part_throw _ _)

theorem sizeKnown_appendReport {s : Running} (h : SizeKnown opts c s) :
    SizeKnown opts c { s with transfer := s.transfer.appendReport jsonCpp c.report } := by
  unfold SizeKnown RunningTransfer.appendReport
  split <;> exact h

theorem error_appendReport (t : RunningTransfer) : (t.appendReport jsonCpp c.report).error = t.error := by
  unfold RunningTransfer.appendReport
  split <;> rfl

theorem part_statDestination : Part (SizeKnown opts c) (SizeKnown opts c) (statDestination opts jsonCpp c)
    (destinationError c.destinationStat) false := by
  have hcall : Part (SizeKnown opts c) (SizeKnown opts c) (call .destinationStat) none false := part_call fun _ hs => hs
  have hreport : Part (SizeKnown opts c) (SizeKnown opts c) (reportDestination opts jsonCpp c) none false := by
    unfold reportDestination
    split
    · split
      · exact part_update (fun s hs => sizeKnown_appendReport hs) error_appendReport
      · exact part_pure
    · exact part_pure
  exact hcall.bind (hreport.bind (part_check _))

theorem part_copy : Part (SizeKnown opts c) (SizeKnown opts c) (copy c) c.copyFailure true := by
  have hcall : Part (SizeKnown opts c) (SizeKnown opts c) (call .copy) none true := part_call fun _ hs => hs
  exact hcall.bind (part_check _)

/-- The exception of the release is recorded, and not thrown. -/
theorem part_releaseFile : Part (SizeKnown opts c) (SizeKnown opts c) (releaseFile opts c) none false := by
  refine part_get fun s hs => ?_
  split
  · have hcall : Part (fun s' => s' = s) (SizeKnown opts c) (call .releaseFile) none false := by
      refine part_call fun s' hs' => ?_
      subst hs'
      exact hs
    have hrecord : Part (SizeKnown opts c) (SizeKnown opts c) (update fun t =>
        { t with evictionRetc := match c.releaseFile with | some code => |code| | none => 0 }) none false :=
      part_update (fun _ hs => hs) fun _ => rfl
    exact hcall.bind hrecord
  · refine ⟨fun _ _ => rfl, fun s' _ => ?_, fun _ _ => rfl, fun _ s' hs' => ?_⟩
    · change .copy ∈ s'.calls ↔ _
      simp
    · subst hs'
      exact hs

theorem part_validateSize (hstrict : opts.strictCopy = false) : Part (SizeKnown opts c) (fun _ => True) (validateSize c)
    (sizeError c.sourceSize c.finalStat) false := by
  have hcall : Part (SizeKnown opts c) (SizeKnown opts c) (call .finalStat) none false := part_call fun _ hs => hs
  have hcheck : Part (SizeKnown opts c) (fun _ => True) (do
      let s ← get
      check (sizeError s.transfer.fileSize c.finalStat) : RunM Unit) (sizeError c.sourceSize c.finalStat) false := by
    refine part_get fun s hs => ?_
    rw [hs hstrict]
    exact (part_check _).weaken (fun _ _ => trivial) fun _ h => h
  exact hcall.bind hcheck

end parts

section runTransfer

variable {opts : UrlCopyOpts} {jsonCpp : JsonCpp} {c : Calls} {t : Transfer}

theorem part_prepareTransfer : Part (fun _ => True) (SizeKnown opts c) (prepareTransfer opts jsonCpp c)
    ((c.sourceFailure opts).or (c.destinationFailure opts)) false := by
  unfold prepareTransfer Calls.sourceFailure Calls.destinationFailure
  cases hstrict : opts.strictCopy with
  | true =>
      simp only [if_true, Bool.true_or]
      exact part_update (fun _ _ h => by rw [hstrict] at h; cases h) fun _ => rfl
  | false =>
      simp only [Bool.false_eq_true, if_false, Bool.false_or]
      have hdestination : Part (SizeKnown opts c) (SizeKnown opts c)
          (if !opts.overwrite then statDestination opts jsonCpp c else pure ())
          (if opts.overwrite then none else destinationError c.destinationStat) false := by
        cases opts.overwrite with
        | true => exact part_pure
        | false => exact part_statDestination
      exact part_statSource.bind hdestination

theorem part_validate : Part (SizeKnown opts c) (fun _ => True) (if !opts.strictCopy then validateSize c else pure ())
    (c.sizeFailure opts) false := by
  unfold Calls.sizeFailure
  cases hstrict : opts.strictCopy with
  | true => exact part_pure.weaken (fun _ _ => trivial) fun _ h => h
  | false => exact part_validateSize hstrict

theorem part_runTransfer (opts : UrlCopyOpts) (jsonCpp : JsonCpp) (c : Calls) :
    Part (fun _ => True) (fun _ => True) (runTransfer opts jsonCpp c)
    (((c.sourceFailure opts).or (c.destinationFailure opts)).or (c.copyFailure.or (c.sizeFailure opts)))
    ((c.sourceFailure opts).or (c.destinationFailure opts)).isNone :=
  part_prepareTransfer.bind (part_copy.bind (part_releaseFile.bind part_validate))

end runTransfer

/-! ## What is reported -/

/-- The transfer as it is reported, with the calls that were made for it: by `run`, or by the panic that follows an exception
which leaves `run`. -/
def reportedOne (t : Transfer) : Running :=
  match runOne opts jsonCpp c t with
  | .ok s => s
  | .error what => { transfer := { transfer := t, error := some (.new .agent .transferService EINTR what) } }

/-- The transfer is reported as finished if all steps have succeeded, nothing is copied after one that has failed, and the
error is the one of the first that has failed. -/
structure Reflects (t : Transfer) : Prop where
  success : ((reportedOne opts jsonCpp c t).transfer.sendTransferCompleted opts).transferStatus = .finished ↔
    ∀ f ∈ c.failures opts t, f = none
  copied : .copy ∈ (reportedOne opts jsonCpp c t).calls →
    c.setupFailure t = none ∧ c.sourceFailure opts = none ∧ c.destinationFailure opts = none
  first : (reportedOne opts jsonCpp c t).transfer.error = (c.failures opts t).findSome? id

/-- An error that `setupTransferConfig` throws is followed by the same one before the copy. -/
def SetupErrorStands (t : Transfer) : Prop :=
  ∀ e, setupTransferConfig t c.setup = .error (.urlCopyError e) →
    ((c.sourceFailure opts).or (c.destinationFailure opts)).map Thrown.error = some e

section report

variable {opts : UrlCopyOpts} {jsonCpp : JsonCpp} {c : Calls} {t : Transfer}

/-- The first error of the transfer itself. -/
def Calls.transferFailure (opts : UrlCopyOpts) (c : Calls) : Option UrlCopyError :=
  (((c.sourceFailure opts).or (c.destinationFailure opts)).or (c.copyFailure.or (c.sizeFailure opts))).map Thrown.error

theorem finished_iff (r : RunningTransfer) : (r.sendTransferCompleted opts).transferStatus = .finished ↔ r.error = none := by
  unfold RunningTransfer.sendTransferCompleted
  cases r.error with
  | none => simp
  | some e =>
      simp only [reduceCtorEq, iff_false]
      split <;> simp

theorem findSome?_failures (opts : UrlCopyOpts) (c : Calls) (t : Transfer) :
    (c.failures opts t).findSome? id = (c.setupFailure t).or (c.transferFailure opts) := by
  unfold Calls.failures Calls.transferFailure
  cases c.setupFailure t <;> cases c.sourceFailure opts <;> cases c.destinationFailure opts <;> cases c.copyFailure <;>
    cases c.sizeFailure opts <;> rfl

theorem forall_failures (opts : UrlCopyOpts) (c : Calls) (t : Transfer) :
    (∀ f ∈ c.failures opts t, f = none) ↔ c.setupFailure t = none ∧ c.transferFailure opts = none := by
  have hnone : (∀ f ∈ c.failures opts t, f = none) ↔ (c.failures opts t).findSome? id = none := by
    simp [List.findSome?_eq_none_iff]
  rw [hnone, findSome?_failures, Option.or_eq_none_iff]

theorem setupTransferConfig_ne_unknown (t : Transfer) (c : SetupCalls) :
    setupTransferConfig t c ≠ .error .unknown := by
  obtain ⟨before, setChecksum, after⟩ := c
  unfold setupTransferConfig
  by_cases hchecksum : t.checksumAlgorithm = [] <;> cases before <;> rcases setChecksum with _ | ⟨code, what⟩ <;>
    cases after <;> simp [hchecksum, bind, Except.bind, pure, Except.pure, throw, throwThe, MonadExceptOf.throw]

theorem handleThrown_runTransfer (opts : UrlCopyOpts) (jsonCpp : JsonCpp) (c : Calls) (r : RunningTransfer) :
    (handleThrown (runTransfer opts jsonCpp c { transfer := r })).transfer.error = (c.transferFailure opts).or r.error ∧
      (.copy ∈ (handleThrown (runTransfer opts jsonCpp c { transfer := r })).calls ↔
        c.sourceFailure opts = none ∧ c.destinationFailure opts = none) := by
  have hpart := part_runTransfer opts jsonCpp c
  have hresult := hpart.result { transfer := r } trivial
  have hcopied := hpart.copied { transfer := r } trivial
  have herror := hpart.error { transfer := r } trivial
  rw [Option.isNone_iff_eq_none, Option.or_eq_none_iff] at hcopied
  unfold Calls.transferFailure
  cases hrun : runTransfer opts jsonCpp c { transfer := r } with
  | mk result s =>
      rw [hrun] at hresult hcopied herror
      rw [show result = raised _ from hresult]
      have hcalls : .copy ∈ s.calls ↔ c.sourceFailure opts = none ∧ c.destinationFailure opts = none := by
        simpa using hcopied
      cases ((c.sourceFailure opts).or (c.destinationFailure opts)).or (c.copyFailure.or (c.sizeFailure opts)) with
      | none => exact ⟨herror, hcalls⟩
      | some e => exact ⟨rfl, hcalls⟩

/-- What fails before the copy is the first error of the transfer. -/
theorem transferFailure_of_preparation {e : UrlCopyError}
    (h : ((c.sourceFailure opts).or (c.destinationFailure opts)).map Thrown.error = some e) :
    c.transferFailure opts = some e := by
  obtain ⟨thrown, hthrown, rfl⟩ := Option.map_eq_some_iff.mp h
  rw [Calls.transferFailure, hthrown, Option.some_or, Option.map_some]

theorem preparation_eq_none_iff :
    ((c.sourceFailure opts).or (c.destinationFailure opts)).map Thrown.error = none ↔
      c.sourceFailure opts = none ∧ c.destinationFailure opts = none := by
  rw [Option.map_eq_none_iff, Option.or_eq_none_iff]

end report

/-! ## In the process -/

/-- The steps of the process from where it has taken the transfer. -/
def transferEvents (t : Transfer) : List Event :=
  match runOne opts jsonCpp c t with
  | .ok s => [.next s.transfer.error]
  | .error what => [.throw what, .next none]

/-- The process reports the transfer with its error, and after an exception that leaves `run` the others with the same. -/
theorem completed_transferEvents (opts : UrlCopyOpts) (jsonCpp : JsonCpp) (c : Calls) {p : UrlCopyProcess} {t : Transfer}
    {todo : List Transfer} (hposition : p.position = .transfer t) (htodo : p.todoTransfers = t :: todo) :
    (Machine.run UrlCopyProcess.step p (transferEvents opts jsonCpp c t)).completed =
      p.completed ++ ⟨t, (reportedOne opts jsonCpp c t).transfer.error⟩ ::
        match runOne opts jsonCpp c t with
        | .ok _ => []
        | .error what => todo.map (.panicked what) := by
  obtain ⟨todoTransfers, canceled, position, completed⟩ := p
  cases hposition
  cases htodo
  unfold transferEvents reportedOne
  cases runOne opts jsonCpp c t with
  | ok s => rfl
  | error what => rfl

/-- What is reported reflects what has happened if and only if an error of the setup stands. -/
theorem reflects_iff (opts : UrlCopyOpts) (jsonCpp : JsonCpp) (c : Calls) (t : Transfer) :
    Reflects opts jsonCpp c t ↔ SetupErrorStands opts c t := by
  cases hsetup : setupTransferConfig t c.setup with
  | ok u =>
      have hfailure : c.setupFailure t = none := by
        rw [Calls.setupFailure, hsetup]
      have hreported : reportedOne opts jsonCpp c t =
          handleThrown (runTransfer opts jsonCpp c { transfer := { transfer := t } }) := by
        simp only [reportedOne, runOne, hsetup, recorded]
      obtain ⟨herror, hcalls⟩ := handleThrown_runTransfer opts jsonCpp c { transfer := t }
      rw [← hreported] at herror hcalls
      rw [Option.or_none] at herror
      refine iff_of_true ⟨?_, ?_, ?_⟩ fun e he => ?_
      · rw [finished_iff, forall_failures, herror, hfailure]
        simp
      · intro hcopy
        exact ⟨hfailure, hcalls.mp hcopy⟩
      · rw [findSome?_failures, herror, hfailure, Option.none_or]
      · rw [hsetup] at he
        cases he
  | error thrown =>
      cases thrown with
      | urlCopyError e =>
          have hfailure : c.setupFailure t = some e := by
            rw [Calls.setupFailure, hsetup]
            rfl
          have hreported : reportedOne opts jsonCpp c t = handleThrown (runTransfer opts jsonCpp c
              { transfer := { transfer := t, error := some e } }) := by
            simp only [reportedOne, runOne, hsetup, recorded, Thrown.error]
          obtain ⟨herror, hcalls⟩ := handleThrown_runTransfer opts jsonCpp c
            { transfer := t, error := some e }
          rw [← hreported] at herror hcalls
          constructor
          · intro h e' he'
            rw [hsetup] at he'
            cases he'
            cases hprepare : ((c.sourceFailure opts).or (c.destinationFailure opts)).map Thrown.error with
            | none =>
                have hcopied := (h.copied (hcalls.mpr (preparation_eq_none_iff.mp hprepare))).1
                rw [hfailure] at hcopied
                cases hcopied
            | some e₁ =>
                have hfirst := h.first
                rw [herror, transferFailure_of_preparation hprepare, findSome?_failures, hfailure] at hfirst
                exact hfirst
          · intro h
            have hprepare := h e hsetup
            rw [transferFailure_of_preparation hprepare, Option.some_or] at herror
            refine ⟨?_, fun hcopy => ?_, ?_⟩
            · rw [finished_iff, forall_failures, herror, hfailure]
              simp
            · rw [preparation_eq_none_iff.mpr (hcalls.mp hcopy)] at hprepare
              cases hprepare
            · rw [findSome?_failures, herror, hfailure, Option.some_or]
      | exception what =>
          have hfailure : c.setupFailure t = some (.new .agent .transferService EINTR what) := by
            rw [Calls.setupFailure, hsetup]
          have hreported : reportedOne opts jsonCpp c t =
              { transfer := { transfer := t, error := some (.new .agent .transferService EINTR what) } } := by
            simp only [reportedOne, runOne, hsetup]
          refine iff_of_true ⟨?_, ?_, ?_⟩ fun e he => ?_
          · rw [finished_iff, forall_failures, hreported, hfailure]
            simp
          · rw [hreported]
            simp
          · rw [findSome?_failures, hreported, hfailure, Option.some_or]
          · rw [hsetup] at he
            cases he
      | unknown => exact absurd hsetup (setupTransferConfig_ne_unknown t c.setup)

end run

/-- All calls go well but that of `setChecksum`, or that and the first `stat`. -/
def callsAfterSetup (sourceStat : Outcome UInt64) : Calls where
  setup := { setChecksum := some (EINVAL, "Invalid checksum".toList) }
  sourceStat
  destinationStat := .gfal2Exception ENOENT "No such file".toList
  copy := .ok ()
  finalStat := .ok 100

def checkedTransfer : Transfer where
  checksumAlgorithm := "MD5".toList
  checksumMode := .target

/-- The file is copied after the setup has failed, and the error of the source is reported in the place of the first one. -/
theorem not_reflects_setup :
    ¬Reflects {} JsonCpp.plainLibrary (callsAfterSetup (.ok 100)) checkedTransfer ∧
    .copy ∈ (reportedOne {} JsonCpp.plainLibrary (callsAfterSetup (.ok 100)) checkedTransfer).calls ∧
    ¬Reflects {} JsonCpp.plainLibrary (callsAfterSetup (.gfal2Exception ENOENT "No such source".toList)) checkedTransfer ∧
    (reportedOne {} JsonCpp.plainLibrary (callsAfterSetup (.gfal2Exception ENOENT "No such source".toList))
      checkedTransfer).transfer.error = some (.new .source .transferPreparation ENOENT "No such source".toList) := by
  have hcopy : .copy ∈ (reportedOne {} JsonCpp.plainLibrary (callsAfterSetup (.ok 100)) checkedTransfer).calls := by
    decide +kernel
  have herror : (reportedOne {} JsonCpp.plainLibrary (callsAfterSetup (.gfal2Exception ENOENT "No such source".toList))
      checkedTransfer).transfer.error = some (.new .source .transferPreparation ENOENT "No such source".toList) := by
    decide +kernel
  refine ⟨fun h => ?_, hcopy, fun h => ?_, herror⟩
  · obtain ⟨hsetup, -, -⟩ := h.copied hcopy
    revert hsetup
    decide +kernel
  · have hfirst := h.first
    rw [herror] at hfirst
    revert hfirst
    decide +kernel

end Fts3.UrlCopy
