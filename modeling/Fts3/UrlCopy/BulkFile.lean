import Mathlib.Data.List.Forall2
import Mathlib.Tactic.MkIffOfInductiveProp
import Fts3.UrlCopy.TransferFile
import Fts3.Server.ReuseTransfers
import Fts3.UrlCopy.Metadata
import Fts3.UrlCopy.Transfer

/-!
# The file of a session reuse job

The server writes a line for each file of the job, and `fts_url_copy` reads the lines.
-/

namespace Fts3.UrlCopy

open Fts3.Text

/-! ## Writing -/

def orX (text : Text) : Text :=
  if text = [] then ['x'] else text

def jobFileFields (f : TransferFile) : List Text :=
  [printNat f.fileId.toNat, f.sourceSurl, f.destSurl, orX f.checksum, printInt f.userFilesize.toInt,
    orX (prepareMetadataString f.fileMetadata), orX (prepareMetadataString f.transferMetadata), orX f.bringOnlineToken,
    printInt f.scitag.toInt]

def jobFileLine (f : TransferFile) : Text :=
  [' '].intercalate (jobFileFields f)

/-- The text that `generateJobFile` writes. -/
def writeJobFile (files : List TransferFile) : Text :=
  files.flatMap fun f => jobFileLine f ++ ['\n']

/-! ## Reading -/

inductive BulkError
  /-- an element is stored behind the nine of the array -/
  | outOfBounds
  | badLexicalCast
  deriving Repr, DecidableEq

def lexicalCast (w : Nat) (text : Text) : Except BulkError Nat :=
  (lexicalCastUnsigned w text).elim (.error .badLexicalCast) .ok

/-- What stands before the first colon, and what stands after it. -/
def splitChecksum (checksum : Text) : Text × Text :=
  (checksum.takeWhile (· ≠ ':'), (checksum.dropWhile (· ≠ ':')).tail)

def setChecksum (transfer : Transfer) (checksum : Text) : Transfer :=
  if checksum = ['x'] then transfer
  else { transfer with checksumAlgorithm := (splitChecksum checksum).1, checksumValue := (splitChecksum checksum).2 }

def createFromTokens (reference : Transfer) (strArray : List Text) : Except BulkError Transfer :=
  if 9 < strArray.length then .error .outOfBounds
  else do
    let element := fun i => strArray.getD i []
    let fileId ← lexicalCast 64 (element 0)
    let userFileSize ← lexicalCast 64 (element 4)
    let scitag ← lexicalCast 32 (element 8)
    pure <| setChecksum
      { jobId := reference.jobId
        fileId
        source := Uri.parse (element 1)
        destination := Uri.parse (element 2)
        checksumMode := reference.checksumMode
        userFileSize
        fileMetadata := if element 5 = ['x'] then [] else element 5
        transferMetadata := if element 6 = ['x'] then [] else replaceMetadataString (element 6)
        tokenBringOnline := if element 7 = ['x'] then [] else element 7
        scitag
        sourceTokenDescription := reference.sourceTokenDescription
        destTokenDescription := reference.destTokenDescription
        sourceTokenIssuer := reference.sourceTokenIssuer
        destTokenIssuer := reference.destTokenIssuer
        isMultipleReplicaJob := false
        isLastReplica := false }
      (element 3)

def createFromString (reference : Transfer) (line : Text) : Except BulkError Transfer :=
  createFromTokens reference (tokens ' ' line)

/-- The transfers of the lines of a text; an empty line is passed over. -/
def initListFromFile (reference : Transfer) (text : Text) : Except BulkError (List Transfer) :=
  ((getlines text).filter (· ≠ [])).mapM (createFromString reference)

/-! ## A line -/

/-- The transfer has what the server knows of the file. -/
@[mk_iff] structure Same (f : TransferFile) (t : Transfer) : Prop where
  fileId : t.fileId = f.fileId.toNat
  source : t.source = Uri.parse f.sourceSurl
  destination : t.destination = Uri.parse f.destSurl
  checksum : (t.checksumAlgorithm, t.checksumValue) = splitChecksum f.checksum
  userFileSize : (t.userFileSize : Int) = f.userFilesize.toInt
  fileMetadata : replaceMetadataString t.fileMetadata = f.fileMetadata
  transferMetadata : t.transferMetadata = f.transferMetadata
  tokenBringOnline : t.tokenBringOnline = f.bringOnlineToken
  scitag : (t.scitag : Int) = f.scitag.toInt

/-- The transfer that comes of the nine elements of the line. -/
def received (reference : Transfer) (f : TransferFile) : Transfer :=
  setChecksum
    { jobId := reference.jobId
      fileId := f.fileId.toNat
      source := Uri.parse f.sourceSurl
      destination := Uri.parse f.destSurl
      checksumMode := reference.checksumMode
      userFileSize := if f.userFilesize.toInt < 0 then 2 ^ 64 - f.userFilesize.toInt.natAbs else f.userFilesize.toInt.natAbs
      fileMetadata := if f.fileMetadata = ['x'] then [] else prepareMetadataString f.fileMetadata
      transferMetadata := if f.transferMetadata = ['x'] then []
        else replaceMetadataString (prepareMetadataString f.transferMetadata)
      tokenBringOnline := if f.bringOnlineToken = ['x'] then [] else f.bringOnlineToken
      scitag := if f.scitag.toInt < 0 then 2 ^ 32 - f.scitag.toInt.natAbs else f.scitag.toInt.natAbs
      sourceTokenDescription := reference.sourceTokenDescription
      destTokenDescription := reference.destTokenDescription
      sourceTokenIssuer := reference.sourceTokenIssuer
      destTokenIssuer := reference.destTokenIssuer
      isMultipleReplicaJob := false
      isLastReplica := false }
    f.checksum

section fields

variable {reference : Transfer} {f : TransferFile} {t : Transfer}

theorem orX_ne_nil (text : Text) : orX text ≠ [] := by
  unfold orX
  split
  · decide
  · assumption

theorem mem_orX {c : Char} (hc : c ≠ 'x') {text : Text} : c ∈ orX text ↔ c ∈ text := by
  unfold orX
  split
  case isTrue h => simp [h, hc]
  case isFalse => rfl

/-- The sentinel is read as an empty text, also where it was not written for one. -/
theorem ite_orX {β : Type} (read : Text → β) (text : Text) :
    (if orX text = ['x'] then read [] else read (orX text)) = if text = ['x'] then read [] else read text := by
  unfold orX
  by_cases h : text = []
  · simp [h]
  · simp [h]

theorem lexicalCast_printNat {w n : Nat} (h : n < 2 ^ w) : lexicalCast w (printNat n) = .ok n := by
  rw [lexicalCast, lexicalCastUnsigned_printNat h]
  rfl

theorem lexicalCast_printInt {w : Nat} {i : Int} (h : i.natAbs < 2 ^ w) :
    lexicalCast w (printInt i) = .ok (if i < 0 then 2 ^ w - i.natAbs else i.natAbs) := by
  rw [lexicalCast, lexicalCastUnsigned_printInt h]
  rfl

theorem natAbs_userFilesize_lt (f : TransferFile) : f.userFilesize.toInt.natAbs < 2 ^ 64 := by
  have := f.userFilesize.toInt_lt
  have := f.userFilesize.le_toInt
  omega

theorem natAbs_scitag_lt (f : TransferFile) : f.scitag.toInt.natAbs < 2 ^ 32 := by
  have := f.scitag.toInt_lt
  have := f.scitag.le_toInt
  omega

theorem setChecksum_orX {transfer : Transfer} (h : transfer.checksumAlgorithm = [] ∧ transfer.checksumValue = [])
    (checksum : Text) : setChecksum transfer (orX checksum) = setChecksum transfer checksum := by
  obtain ⟨halgorithm, hvalue⟩ := h
  cases transfer
  unfold orX
  split
  case isTrue hnil =>
    subst hnil
    simp_all [setChecksum, splitChecksum]
  case isFalse => rfl

/-- The elements as they are written make a transfer. -/
theorem createFromTokens_fields (reference : Transfer) (f : TransferFile) :
    createFromTokens reference (jobFileFields f) = .ok (received reference f) := by
  have hfile := ite_orX id (prepareMetadataString f.fileMetadata)
  have htransfer := ite_orX replaceMetadataString (prepareMetadataString f.transferMetadata)
  have htoken := ite_orX id f.bringOnlineToken
  simp only [id, prepareMetadataString_eq_x] at hfile htransfer htoken
  have hnil : replaceMetadataString [] = [] := rfl
  rw [hnil] at htransfer
  simp only [createFromTokens, jobFileFields, List.length_cons, List.length_nil, Nat.reduceAdd, Nat.lt_irrefl, if_false,
    List.getD_cons_succ, List.getD_cons_zero, lexicalCast_printNat f.fileId.toNat_lt,
    lexicalCast_printInt (natAbs_userFilesize_lt f), lexicalCast_printInt (natAbs_scitag_lt f), hfile, htransfer, htoken]
  rw [received, ← setChecksum_orX ⟨rfl, rfl⟩]
  rfl

/-- What the sentinels, the question marks and the signs of numbers spoil. -/
def Unambiguous (f : TransferFile) : Prop :=
  f.checksum ≠ ['x'] ∧ 0 ≤ f.userFilesize.toInt ∧ ('?' ∉ f.fileMetadata ∧ f.fileMetadata ≠ ['x']) ∧
    ('?' ∉ f.transferMetadata ∧ f.transferMetadata ≠ ['x']) ∧ f.bringOnlineToken ≠ ['x'] ∧ 0 ≤ f.scitag.toInt

theorem ite_nil_eq_self {text : Text} : (if text = ['x'] then [] else text) = text ↔ text ≠ ['x'] := by
  split <;> simp_all

theorem replace_ite_eq_self {text : Text} :
    replaceMetadataString (if text = ['x'] then [] else prepareMetadataString text) = text ↔
      '?' ∉ text ∧ text ≠ ['x'] := by
  by_cases h : text = ['x']
  · subst h
    simp only [if_pos]
    decide
  · simp [h, replace_prepareMetadataString_eq_self]

theorem unsigned_eq_self {w : Nat} {i : Int} :
    ((if i < 0 then 2 ^ w - i.natAbs else i.natAbs : Nat) : Int) = i ↔ 0 ≤ i := by
  split <;> omega

theorem splitChecksum_x : splitChecksum ['x'] = (['x'], []) := by
  decide

theorem checksum_setChecksum {transfer : Transfer} (h : transfer.checksumAlgorithm = [] ∧ transfer.checksumValue = [])
    (checksum : Text) : ((setChecksum transfer checksum).checksumAlgorithm, (setChecksum transfer checksum).checksumValue) =
      splitChecksum checksum ↔ checksum ≠ ['x'] := by
  unfold setChecksum
  split
  case isTrue hx => simp [hx, h, splitChecksum_x]
  case isFalse hx => simp [hx]

section others

variable (transfer : Transfer) (checksum : Text)

@[simp] theorem fileId_setChecksum : (setChecksum transfer checksum).fileId = transfer.fileId := by
  unfold setChecksum; split <;> rfl

@[simp] theorem source_setChecksum : (setChecksum transfer checksum).source = transfer.source := by
  unfold setChecksum; split <;> rfl

@[simp] theorem destination_setChecksum : (setChecksum transfer checksum).destination = transfer.destination := by
  unfold setChecksum; split <;> rfl

@[simp] theorem userFileSize_setChecksum : (setChecksum transfer checksum).userFileSize = transfer.userFileSize := by
  unfold setChecksum; split <;> rfl

@[simp] theorem fileMetadata_setChecksum : (setChecksum transfer checksum).fileMetadata = transfer.fileMetadata := by
  unfold setChecksum; split <;> rfl

@[simp] theorem transferMetadata_setChecksum :
    (setChecksum transfer checksum).transferMetadata = transfer.transferMetadata := by
  unfold setChecksum; split <;> rfl

@[simp] theorem tokenBringOnline_setChecksum :
    (setChecksum transfer checksum).tokenBringOnline = transfer.tokenBringOnline := by
  unfold setChecksum; split <;> rfl

@[simp] theorem scitag_setChecksum : (setChecksum transfer checksum).scitag = transfer.scitag := by
  unfold setChecksum; split <;> rfl

end others

theorem same_received : Same f (received reference f) ↔ Unambiguous f := by
  have htransfer : (if f.transferMetadata = ['x'] then [] else
      replaceMetadataString (prepareMetadataString f.transferMetadata)) = f.transferMetadata ↔
        '?' ∉ f.transferMetadata ∧ f.transferMetadata ≠ ['x'] := by
    rw [← replace_ite_eq_self, apply_ite replaceMetadataString]
    rfl
  rw [same_iff, Unambiguous, received, checksum_setChecksum ⟨rfl, rfl⟩]
  simp only [fileId_setChecksum, source_setChecksum, destination_setChecksum, userFileSize_setChecksum,
    fileMetadata_setChecksum, transferMetadata_setChecksum, tokenBringOnline_setChecksum, scitag_setChecksum,
    unsigned_eq_self, replace_ite_eq_self, htransfer, ite_nil_eq_self, true_and]

theorem element_of_lexicalCast {w n : Nat} {text : Text} (h : lexicalCast w text = .ok n) : text ≠ [] := by
  rintro rfl
  simp [lexicalCast, lexicalCastUnsigned, digitsValue] at h

theorem exists_of_bind_eq_ok {ε α β : Type} {x : Except ε α} {k : α → Except ε β} {b : β} (h : (x >>= k) = .ok b) :
    ∃ a, x = .ok a ∧ k a = .ok b := by
  cases x with
  | error e => cases h
  | ok a => exact ⟨a, rfl, h⟩

/-- A transfer is made of nine elements. -/
theorem createFromTokens_cases {strArray : List Text} (h : createFromTokens reference strArray = .ok t) :
    ∃ k₀ k₁ k₂ k₃ k₄ k₅ k₆ k₇ k₈, strArray = [k₀, k₁, k₂, k₃, k₄, k₅, k₆, k₇, k₈] ∧ t.source = Uri.parse k₁ ∧
      t.destination = Uri.parse k₂ ∧ t.tokenBringOnline = (if k₇ = ['x'] then [] else k₇) ∧
        (t.checksumAlgorithm, t.checksumValue) = if k₃ = ['x'] then ([], []) else splitChecksum k₃ := by
  unfold createFromTokens at h
  split at h
  case isTrue => cases h
  case isFalse hle =>
    obtain ⟨fileId, -, h⟩ := exists_of_bind_eq_ok h
    obtain ⟨size, -, h⟩ := exists_of_bind_eq_ok h
    obtain ⟨scitag, hscitag, h⟩ := exists_of_bind_eq_ok h
    -- there is no number in an element that has not been stored
    have hlt : 8 < strArray.length := by
      by_contra hge
      exact element_of_lexicalCast hscitag (by simp [List.getElem?_eq_none (Nat.le_of_not_lt hge)])
    have hlength : strArray.length = 9 := by omega
    match strArray, hlength with
    | [k₀, k₁, k₂, k₃, k₄, k₅, k₆, k₇, k₈], _ =>
        cases h
        refine ⟨k₀, k₁, k₂, k₃, k₄, k₅, k₆, k₇, k₈, rfl, by simp, by simp, by simp, ?_⟩
        simp only [setChecksum, List.getD_cons_succ, List.getD_cons_zero]
        split <;> rfl

theorem mem_splitChecksum {c : Char} (hc : c ≠ ':') (checksum : Text) :
    c ∈ checksum ↔ c ∈ (splitChecksum checksum).1 ∨ c ∈ (splitChecksum checksum).2 := by
  unfold splitChecksum
  induction checksum with
  | nil => simp
  | cons d ds ih =>
      by_cases hd : d = ':'
      · simp [hd, hc]
      · simpa [hd, or_assoc] using or_congr_right ih

/-- The line is split where its fields meet. -/
def Splittable (f : TransferFile) : Prop :=
  (f.sourceSurl ≠ [] ∧ ' ' ∉ f.sourceSurl) ∧ (f.destSurl ≠ [] ∧ ' ' ∉ f.destSurl) ∧ ' ' ∉ f.checksum ∧
    ' ' ∉ f.bringOnlineToken

theorem Splittable.tokens_jobFileLine (h : Splittable f) : tokens ' ' (jobFileLine f) = jobFileFields f := by
  obtain ⟨⟨hsource, hsource'⟩, ⟨hdest, hdest'⟩, hchecksum, htoken⟩ := h
  have hprepared : ∀ text, tokens ' ' (orX (prepareMetadataString text)) = [orX (prepareMetadataString text)] :=
    fun text => tokens_eq_singleton (by simpa [mem_orX] using blank_not_mem_prepareMetadataString text) (orX_ne_nil _)
  have hint : ∀ i, tokens ' ' (printInt i) = [printInt i] :=
    fun i => tokens_eq_singleton (not_mem_printInt (by decide) (by decide)) (printInt_ne_nil i)
  have hfileId : tokens ' ' (printNat f.fileId.toNat) = [printNat f.fileId.toNat] :=
    tokens_eq_singleton (not_mem_printNat (by decide)) (printNat_ne_nil _)
  have hchecksum' : tokens ' ' (orX f.checksum) = [orX f.checksum] :=
    tokens_eq_singleton (by simpa [mem_orX] using hchecksum) (orX_ne_nil _)
  have htoken' : tokens ' ' (orX f.bringOnlineToken) = [orX f.bringOnlineToken] :=
    tokens_eq_singleton (by simpa [mem_orX] using htoken) (orX_ne_nil _)
  rw [jobFileLine, tokens_intercalate]
  simp [jobFileFields, hfileId, tokens_eq_singleton hsource' hsource, tokens_eq_singleton hdest' hdest, hchecksum', hint,
    hprepared, htoken']

/-- A line that is read as the transfer of its file has been split into its fields. -/
theorem splittable_of_ok (h : createFromString reference (jobFileLine f) = .ok t) (hsame : Same f t) : Splittable f := by
  have hplain : ∀ k ∈ tokens ' ' (jobFileLine f), k ≠ [] ∧ ' ' ∉ k := fun k hk => ne_nil_of_mem_tokens hk
  obtain ⟨k₀, k₁, k₂, k₃, k₄, k₅, k₆, k₇, k₈, hk, hsource, hdestination, htoken, hchecksum⟩ := createFromTokens_cases h
  rw [hk] at hplain
  have hsource' : k₁ = f.sourceSurl := by simpa using congrArg Uri.fullUri (hsource.symm.trans hsame.source)
  have hdestination' : k₂ = f.destSurl := by simpa using congrArg Uri.fullUri (hdestination.symm.trans hsame.destination)
  refine ⟨hsource' ▸ hplain k₁ (by simp), hdestination' ▸ hplain k₂ (by simp), ?_, ?_⟩
  · rw [mem_splitChecksum (by decide), ← hsame.checksum, hchecksum]
    split
    · simp
    · rw [← mem_splitChecksum (by decide)]
      exact (hplain k₃ (by simp)).2
  · rw [← hsame.tokenBringOnline, htoken]
    split
    · simp
    · exact (hplain k₇ (by simp)).2

/-- When a line is read as the transfer of its file. -/
theorem line_round_trip : (∃ t, createFromString reference (jobFileLine f) = .ok t ∧ Same f t) ↔
    Splittable f ∧ Unambiguous f := by
  have hread : Splittable f → createFromString reference (jobFileLine f) = .ok (received reference f) := by
    intro h
    rw [createFromString, h.tokens_jobFileLine, createFromTokens_fields]
  constructor
  · rintro ⟨t, ht, hsame⟩
    have hsplittable := splittable_of_ok ht hsame
    rw [hread hsplittable] at ht
    cases ht
    exact ⟨hsplittable, same_received.mp hsame⟩
  · rintro ⟨hsplittable, hunambiguous⟩
    exact ⟨_, hread hsplittable, same_received.mpr hunambiguous⟩

end fields

/-! ## The file -/

/-- The fields have no end of a line. -/
def OneLine (f : TransferFile) : Prop :=
  '\n' ∉ f.sourceSurl ∧ '\n' ∉ f.destSurl ∧ '\n' ∉ f.checksum ∧ '\n' ∉ f.fileMetadata ∧ '\n' ∉ f.transferMetadata ∧
    '\n' ∉ f.bringOnlineToken

/-- The line starts and ends with a number. -/
theorem jobFileLine_eq (f : TransferFile) : ∃ middle, jobFileLine f =
    printNat f.fileId.toNat ++ middle ++ printInt f.scitag.toInt ∧ ('\n' ∉ middle ↔ OneLine f) := by
  refine ⟨' ' :: ([' '].intercalate [f.sourceSurl, f.destSurl, orX f.checksum, printInt f.userFilesize.toInt,
    orX (prepareMetadataString f.fileMetadata), orX (prepareMetadataString f.transferMetadata),
    orX f.bringOnlineToken] ++ [' ']), ?_, ?_⟩
  · simp [jobFileLine, jobFileFields, List.intercalate_cons_cons]
  · have hint : '\n' ∉ printInt f.userFilesize.toInt := not_mem_printInt (by decide) (by decide)
    have hmetadata : ∀ text, '\n' ∈ prepareMetadataString text ↔ '\n' ∈ text :=
      fun _ => mem_prepareMetadataString (by decide) (by decide) (by decide)
    simp [List.intercalate_cons_cons, OneLine, mem_orX, hint, hmetadata]

theorem OneLine.tokens_jobFileLine {f : TransferFile} (h : OneLine f) : tokens '\n' (jobFileLine f) = [jobFileLine f] := by
  obtain ⟨middle, hline, hmiddle⟩ := jobFileLine_eq f
  refine tokens_eq_singleton ?_ ?_
  · rw [hline]
    simp [hmiddle.mpr h, not_mem_printNat, not_mem_printInt]
  · simp [hline, printNat_ne_nil]

/-- Another line is read for each end of a line in the fields. -/
theorem length_tokens_jobFileLine (f : TransferFile) : 1 ≤ (tokens '\n' (jobFileLine f)).length ∧
    ((tokens '\n' (jobFileLine f)).length = 1 → OneLine f) := by
  by_cases h : OneLine f
  · simp [h.tokens_jobFileLine, h]
  · obtain ⟨middle, hline, hmiddle⟩ := jobFileLine_eq f
    have htwo : 2 ≤ (tokens '\n' (jobFileLine f)).length := by
      rw [hline]
      refine two_le_length_tokens ⟨printNat_ne_nil _, not_mem_printNat (by decide)⟩
        ⟨printInt_ne_nil _, not_mem_printInt (by decide) (by decide)⟩ ?_
      by_contra hnot
      exact h (hmiddle.mp hnot)
    exact ⟨by omega, fun hone => by omega⟩

theorem lines_writeJobFile (files : List TransferFile) : (getlines (writeJobFile files)).filter (· ≠ []) =
    files.flatMap fun f => tokens '\n' (jobFileLine f) := by
  rw [filter_getlines]
  induction files with
  | nil => rfl
  | cons f files ih =>
      rw [List.flatMap_cons, ← ih, ← tokens_append]
      simp [writeJobFile]

theorem mapM_eq_ok {ε α β : Type} {g : α → Except ε β} {xs : List α} {ys : List β} :
    xs.mapM g = .ok ys ↔ List.Forall₂ (fun x y => g x = .ok y) xs ys := by
  induction xs generalizing ys with
  | nil => simp [pure, Except.pure, eq_comm]
  | cons x xs ih =>
      rw [List.mapM_cons, List.forall₂_cons_left_iff]
      constructor
      · intro h
        obtain ⟨y, hy, h⟩ := exists_of_bind_eq_ok h
        obtain ⟨ys', hys', h⟩ := exists_of_bind_eq_ok h
        cases h
        exact ⟨y, ys', hy, ih.mp hys', rfl⟩
      · rintro ⟨y, ys', hy, hys', rfl⟩
        rw [hy, ih.mpr hys']
        rfl

/-- Where each part has an element, they are as many as the parts only if each has one. -/
theorem length_flatMap_cases {α β : Type} {g : α → List β} {xs : List α} (h : ∀ x ∈ xs, 1 ≤ (g x).length) :
    xs.length ≤ (xs.flatMap g).length ∧ ((xs.flatMap g).length = xs.length → ∀ x ∈ xs, (g x).length = 1) := by
  induction xs with
  | nil => simp
  | cons x xs ih =>
      have hx := h x List.mem_cons_self
      obtain ⟨hle, hone⟩ := ih fun y hy => h y (List.mem_cons_of_mem x hy)
      rw [List.flatMap_cons, List.length_append, List.length_cons]
      refine ⟨by omega, fun heq y hy => ?_⟩
      rcases List.mem_cons.mp hy with rfl | hy
      · omega
      · exact hone (by omega) y hy

/-- What the format of the file can carry. -/
def Carried (f : TransferFile) : Prop :=
  OneLine f ∧ Splittable f ∧ Unambiguous f

instance (f : TransferFile) : Decidable (Carried f) :=
  inferInstanceAs (Decidable ((_ ∧ _ ∧ _ ∧ _ ∧ _ ∧ _) ∧ ((_ ∧ _) ∧ (_ ∧ _) ∧ _ ∧ _) ∧ _ ∧ _ ∧ (_ ∧ _) ∧ (_ ∧ _) ∧ _ ∧ _))

theorem lines_of_oneLine {files : List TransferFile} (h : ∀ f ∈ files, OneLine f) :
    (getlines (writeJobFile files)).filter (· ≠ []) = files.map jobFileLine := by
  rw [lines_writeJobFile, List.flatMap_congr fun f hf => (h f hf).tokens_jobFileLine, List.map_eq_flatMap]

theorem exists_forall₂ {α β : Type} {P Q : α → β → Prop} {xs : List α} :
    (∃ ys, List.Forall₂ P xs ys ∧ List.Forall₂ Q xs ys) ↔ ∀ x ∈ xs, ∃ y, P x y ∧ Q x y := by
  induction xs with
  | nil => simp
  | cons x xs ih =>
      rw [List.forall_mem_cons, ← ih]
      constructor
      · rintro ⟨ys, hPs, hQs⟩
        cases hPs with
        | cons hP hPs =>
            cases hQs with
            | cons hQ hQs => exact ⟨⟨_, hP, hQ⟩, _, hPs, hQs⟩
      · rintro ⟨⟨y, hP, hQ⟩, ys, hPs, hQs⟩
        exact ⟨y :: ys, .cons hP hPs, .cons hQ hQs⟩

/-- The transfers are read as they have been written if and only if the format can carry each of the files. -/
theorem bulk_file_round_trip (reference : Transfer) (files : List TransferFile) :
    (∃ transfers, initListFromFile reference (writeJobFile files) = .ok transfers ∧ List.Forall₂ Same files transfers) ↔
      ∀ f ∈ files, Carried f := by
  have hlines : (∀ f ∈ files, OneLine f) → ((∃ transfers,
      initListFromFile reference (writeJobFile files) = .ok transfers ∧ List.Forall₂ Same files transfers) ↔
        ∀ f ∈ files, Splittable f ∧ Unambiguous f) := by
    intro hone
    simp only [initListFromFile, lines_of_oneLine hone, mapM_eq_ok, List.forall₂_map_left_iff]
    rw [exists_forall₂]
    exact forall₂_congr fun f _ => line_round_trip
  constructor
  · rintro ⟨transfers, hread, hsame⟩
    -- no line is split, since there are as many transfers as files
    have hone : ∀ f ∈ files, OneLine f := by
      have hlength := (mapM_eq_ok.mp hread).length_eq.trans hsame.length_eq.symm
      rw [lines_writeJobFile] at hlength
      have hcases := length_flatMap_cases fun f (_ : f ∈ files) => (length_tokens_jobFileLine f).1
      exact fun f hf => (length_tokens_jobFileLine f).2 (hcases.2 hlength f hf)
    exact fun f hf => ⟨hone f hf, (hlines hone).mp ⟨transfers, hread, hsame⟩ f hf⟩
  · intro h
    exact (hlines fun f hf => (h f hf).1).mpr fun f hf => (h f hf).2

section fixed

def plainFile : TransferFile :=
  { fileId := 1, sourceSurl := "https://a/f".toList, destSurl := "https://b/f".toList }

/-- A file with each of the optional fields, and one without. -/
def bulkFiles : List TransferFile :=
  [{ plainFile with
     checksum := "adler32:1a".toList
     userFilesize := 10
     fileMetadata := "[\"a b\"]".toList
     transferMetadata := "a b".toList
     bringOnlineToken := "token".toList
     scitag := 65 },
    { plainFile with fileId := 2 }]

theorem bulk_file_round_trip_two :
    ∃ transfers, initListFromFile {} (writeJobFile bulkFiles) = .ok transfers ∧ List.Forall₂ Same bulkFiles transfers :=
  (bulk_file_round_trip {} bulkFiles).mpr (by decide)

/-- A blank in a URL makes a tenth element, and a question mark in the metadata comes back as a blank. -/
theorem bulk_file_broken :
    initListFromFile {} (writeJobFile [{ plainFile with sourceSurl := "https://a/f g".toList }]) = .error .outOfBounds ∧
      ¬ ∃ transfers, initListFromFile {} (writeJobFile [{ plainFile with fileMetadata := "ok?".toList }]) = .ok transfers ∧
        List.Forall₂ Same [{ plainFile with fileMetadata := "ok?".toList }] transfers := by
  refine ⟨by decide, ?_⟩
  rintro ⟨transfers, hread, hsame⟩
  cases hsame with
  | cons h hrest =>
      cases hrest
      have hmetadata : (initListFromFile {} (writeJobFile [{ plainFile with fileMetadata := "ok?".toList }])).map
          (List.map fun t => replaceMetadataString t.fileMetadata) = .ok ["ok ".toList] := by
        decide
      rw [hread] at hmetadata
      simp [Except.map, h.fileMetadata] at hmetadata

end fixed

/-! ## The rows of the database -/

open Fts3.MySql (FileRow)

/-- The file that is read from a row. -/
structure OfRow (r : FileRow) (f : TransferFile) : Prop where
  fileId : f.fileId.toNat = r.fileId
  sourceSurl : f.sourceSurl = (r.sourceSurl.getD "").toList
  destSurl : f.destSurl = (r.destSurl.getD "").toList
  checksum : f.checksum = (r.checksum.getD "").toList
  userFilesize : f.userFilesize.toInt = r.userFilesize.getD 0
  fileMetadata : f.fileMetadata = (r.fileMetadata.getD "").toList
  transferMetadata : f.transferMetadata = (r.archiveMetadata.getD "").toList
  bringOnlineToken : f.bringOnlineToken = (r.bringonlineToken.getD "").toList
  scitag : f.scitag.toInt = r.scitag.getD 0

theorem toList_orX (s : String) : (Server.orX s).toList = orX s.toList := by
  unfold Server.orX orX
  by_cases h : s = ""
  · simp [h]
  · simp [h]

theorem toList_prepareMetadataString (s : String) :
    (Server.prepareMetadataString s).toList = prepareMetadataString s.toList := by
  rw [Server.prepareMetadataString, prepareMetadataString_eq, String.toList_ofList]
  rfl

theorem OfRow.toList_jobFileLine {r : FileRow} {f : TransferFile} (h : OfRow r f) :
    (Server.jobFileLine r).toList = jobFileLine f := by
  rw [Server.jobFileLine, String.toList_intercalate, jobFileLine, jobFileFields, h.fileId, h.sourceSurl, h.destSurl,
    h.checksum, h.userFilesize, h.fileMetadata, h.transferMetadata, h.bringOnlineToken, h.scitag]
  simp [toList_orX, toList_prepareMetadataString, toList_repr, printNat]

/-- The lines that are generated for the rows of a job are those of its files. -/
theorem toList_generateJobFile {rows : List FileRow} {files : List TransferFile} (h : List.Forall₂ OfRow rows files) :
    ((Server.generateJobFile rows).2.flatMap fun line => line.toList ++ ['\n']) = writeJobFile files := by
  rw [Server.generateJobFile, List.flatMap_map, writeJobFile]
  induction h with
  | nil => rfl
  | cons hrow _ ih => rw [List.flatMap_cons, List.flatMap_cons, hrow.toList_jobFileLine, ih]

end Fts3.UrlCopy
