import Fts3.MySql.Lemmas.Spares

/-!
# Files that wait for their tokens

`updateTokenPrepFiles` releases the `TOKEN_PREP` files whose tokens have been exchanged, and
`failTransfersWithFailedTokenExchange` fails those with a token that could not be. The first joins `t_file` with the
token of the source and with the token of the destination, so a file without one of them is never released. The second
names the source whenever the file has a source token.
-/

namespace Fts3.MySql

open Fts3.Sql

/-! ## The release -/

/-- The tokens that the file refers to. -/
def FileRow.tokenIds (r : FileRow) : List String :=
  r.srcTokenId.toList ++ r.dstTokenId.toList

/-- The state that a released file goes to, by its name. -/
def FileRow.initialState (r : FileRow) : String :=
  if r.fileStateInitial.getD "" = "" then "SUBMITTED" else r.fileStateInitial.getD ""

/-- Every token of the file has a refresh token. -/
def Db.exchanged (db : Db) (r : FileRow) : Bool :=
  r.tokenIds.all fun t => db.refreshed (some t)

/-- What the rows that are read make of a row. -/
def FileRow.release : List (Nat × String) → FileRow → FileRow
  | [], r => r
  | (fileId, fileState) :: files, r =>
      match FileState.ofName? fileState with
      | none => r
      | some st => release files (if r.fileId = fileId && r.fileState = .tokenPrep then { r with fileState := st } else r)

/-- The preparation has ended for the files whose tokens are there, and only for them. -/
structure TokenPrepEnds (db db' : Db) : Prop where
  none_left : ∀ r ∈ db'.files.rows, r.fileState = .tokenPrep → db'.exchanged r = false
  released : ∀ r ∈ db.files.rows, ∀ r', db'.files.find? r.fileId = some r' → r.fileState = .tokenPrep →
    r'.fileState ≠ .tokenPrep → FileState.ofName? r.initialState = some r'.fileState
  untouched : ∀ r ∈ db.files.rows, db.exchanged r = false → db'.files.find? r.fileId = some r

/-- Every file that could be released has both tokens, and an initial state to go to. -/
def Db.Releasable (db : Db) : Prop :=
  ∀ r ∈ db.files.rows, r.fileState = .tokenPrep → db.exchanged r = true →
    r.srcTokenId.isSome = true ∧ r.dstTokenId.isSome = true ∧
      ((FileState.ofName? r.initialState).any fun st => st ≠ .tokenPrep) = true

instance (db : Db) : Decidable db.Releasable :=
  inferInstanceAs (Decidable (∀ r ∈ db.files.rows, _ → _ → _ ∧ _ ∧ _))

section release

variable {db : Db} {files : List (Nat × String)} {f : Nat} {r : FileRow}

/-- A released row is as before except for its state, which a row that is read has named. -/
theorem FileRow.release_cases (files : List (Nat × String)) (r : FileRow) :
    r.release files = r ∨ ∃ name st, (r.fileId, name) ∈ files ∧ FileState.ofName? name = some st ∧
      r.fileState = .tokenPrep ∧ r.release files = { r with fileState := st } := by
  induction files generalizing r with
  | nil => exact .inl rfl
  | cons e files ih =>
      obtain ⟨fileId, fileState⟩ := e
      unfold release
      cases hname : FileState.ofName? fileState with
      | none => exact .inl rfl
      | some st =>
          by_cases hsel : r.fileId = fileId ∧ r.fileState = .tokenPrep
          · obtain ⟨rfl, hst⟩ := hsel
            right
            simp only [hst, decide_true, Bool.and_self, if_true]
            rcases ih { r with fileState := st } with heq | ⟨name, st', hmem, hname', -, heq⟩
            · exact ⟨fileState, st, by simp, hname, trivial, heq⟩
            · exact ⟨name, st', List.mem_cons_of_mem _ hmem, hname', trivial, heq⟩
          · have hskip : (r.fileId = fileId && r.fileState = .tokenPrep) = false := by simpa using hsel
            simp only [hskip, Bool.false_eq_true, if_false]
            rcases ih r with heq | ⟨name, st', hmem, hrest⟩
            · exact .inl heq
            · exact .inr ⟨name, st', List.mem_cons_of_mem _ hmem, hrest⟩

theorem FileRow.release_of_ne (hst : r.fileState ≠ .tokenPrep) : r.release files = r := by
  rcases r.release_cases files with heq | ⟨_, _, _, _, hprep, _⟩
  · exact heq
  · exact absurd hprep hst

theorem FileRow.release_tokenIds : (r.release files).tokenIds = r.tokenIds := by
  rcases r.release_cases files with heq | ⟨_, _, _, _, _, heq⟩
  · rw [heq]
  · rw [heq]
    rfl

/-- Where every name is one of the enumeration, no row that is read is left. -/
theorem FileRow.release_of_mem (hnames : ∀ e ∈ files, ∃ st, FileState.ofName? e.2 = some st ∧ st ≠ .tokenPrep)
    {name : String} (hmem : (r.fileId, name) ∈ files) : (r.release files).fileState ≠ .tokenPrep := by
  by_cases hst : r.fileState = .tokenPrep
  · induction files generalizing r with
    | nil => cases hmem
    | cons e files ih =>
        obtain ⟨fileId, fileState⟩ := e
        obtain ⟨st, hname, hne⟩ := hnames (fileId, fileState) (by simp)
        simp only at hname
        simp only [release, hname, hst, decide_true, Bool.and_true, decide_eq_true_eq]
        split
        · rw [release_of_ne hne]
          exact hne
        · rename_i hother
          rcases List.mem_cons.mp hmem with heq | hmem
          · exact absurd (congrArg Prod.fst heq) hother
          · exact ih (fun e he => hnames e (by simp [he])) hmem hst
  · rw [release_of_ne hst]
    exact hst

theorem storeInitialStates_alone (files : List (Nat × String)) (db : Db) :
    (∀ f, ((storeInitialStates files).alone db).files.find? f = (db.files.find? f).map (FileRow.release files)) ∧
      ((storeInitialStates files).alone db).tokens = db.tokens := by
  induction files generalizing db with
  | nil => exact ⟨fun f => Option.map_id'.symm, rfl⟩
  | cons e files ih =>
      obtain ⟨fileId, fileState⟩ := e
      have hrelease : FileRow.release ((fileId, fileState) :: files) = fun r => _ := funext fun r => by rw [FileRow.release]
      rw [hrelease, storeInitialStates]
      cases hname : FileState.ofName? fileState with
      | none => exact ⟨fun f => Option.map_id'.symm, rfl⟩
      | some st =>
          obtain ⟨hfiles, htokens⟩ := ih ((Stmt.file (.updateTokenPrepFiles fileId st)).exec db).2
          refine ⟨fun f => (hfiles f).trans ?_, htokens⟩
          rw [exec_file_find?, Option.map_map]
          rfl

theorem updateTokenPrepFiles_alone (db : Db) :
    (∀ f, (updateTokenPrepFiles.alone db).files.find? f = (db.files.find? f).map (FileRow.release db.tokenPrepFiles)) ∧
      (updateTokenPrepFiles.alone db).tokens = db.tokens :=
  storeInitialStates_alone db.tokenPrepFiles db

theorem mem_tokenPrepFiles (hr : r ∈ db.files.rows) {name : String} : (r.fileId, name) ∈ db.tokenPrepFiles ↔
    r.fileState = .tokenPrep ∧ db.refreshed r.srcTokenId = true ∧ db.refreshed r.dstTokenId = true ∧
      name = r.initialState := by
  simp only [Db.tokenPrepFiles, Table.select, List.mem_map, List.mem_filter, Bool.and_eq_true, decide_eq_true_eq,
    Prod.mk.injEq]
  constructor
  · rintro ⟨x, ⟨hx, ⟨hst, hsrc⟩, hdst⟩, hid, hname⟩
    have hxr : x = r := by
      have hfind := Table.find?_key hx
      rw [hid, Table.find?_key hr] at hfind
      exact (Option.some.inj hfind).symm
    subst hxr
    exact ⟨hst, hsrc, hdst, hname.symm⟩
  · rintro ⟨hst, hsrc, hdst, rfl⟩
    exact ⟨r, ⟨hr, ⟨hst, hsrc⟩, hdst⟩, rfl, rfl⟩

theorem refreshed_isSome {t : Option String} (h : db.refreshed t = true) : t.isSome = true := by
  cases t with
  | none => cases h
  | some t => rfl

/-- The inner joins ask for both tokens. -/
theorem exchanged_iff (hsrc : r.srcTokenId.isSome = true) (hdst : r.dstTokenId.isSome = true) :
    db.exchanged r = true ↔ db.refreshed r.srcTokenId = true ∧ db.refreshed r.dstTokenId = true := by
  obtain ⟨s, hs⟩ := Option.isSome_iff_exists.mp hsrc
  obtain ⟨d, hd⟩ := Option.isSome_iff_exists.mp hdst
  simp [Db.exchanged, FileRow.tokenIds, hs, hd]

theorem exchanged_congr {db' : Db} (h : db'.tokens = db.tokens) {r' : FileRow} (hr : r'.tokenIds = r.tokenIds) :
    db'.exchanged r' = db.exchanged r := by
  simp only [Db.exchanged, Db.refreshed, h, hr]

theorem updateTokenPrepFiles_row (hr : r ∈ db.files.rows) :
    (updateTokenPrepFiles.alone db).files.find? r.fileId = some (r.release db.tokenPrepFiles) := by
  rw [(updateTokenPrepFiles_alone db).1, Table.find?_key hr, Option.map_some]

theorem releasable_of_ends (h : TokenPrepEnds db (updateTokenPrepFiles.alone db)) : db.Releasable := by
  intro r hr hst hexchanged
  have hrow := Table.mem_of_find? (updateTokenPrepFiles_row hr)
  have hleft : (r.release db.tokenPrepFiles).fileState ≠ .tokenPrep := by
    intro hleft
    have hnot := h.none_left _ hrow hleft
    rw [exchanged_congr (updateTokenPrepFiles_alone db).2 FileRow.release_tokenIds, hexchanged] at hnot
    cases hnot
  rcases r.release_cases db.tokenPrepFiles with heq | ⟨name, st, hmem, hname, -, heq⟩
  · rw [heq] at hleft
    exact absurd hst hleft
  · obtain ⟨-, hsrc, hdst, rfl⟩ := (mem_tokenPrepFiles hr).mp hmem
    rw [heq] at hleft
    exact ⟨refreshed_isSome hsrc, refreshed_isSome hdst, by simpa [hname] using hleft⟩

theorem ends_of_releasable (h : db.Releasable) : TokenPrepEnds db (updateTokenPrepFiles.alone db) where
  none_left := by
    intro r' hr' hst'
    have hfind := Table.find?_key hr'
    rw [(updateTokenPrepFiles_alone db).1, Option.map_eq_some_iff] at hfind
    obtain ⟨r, hr, rfl⟩ := hfind
    rw [exchanged_congr (updateTokenPrepFiles_alone db).2 FileRow.release_tokenIds, ← Bool.not_eq_true]
    intro hexchanged
    have hmem := Table.mem_of_find? hr
    have hst : r.fileState = .tokenPrep := by
      by_contra hne
      rw [FileRow.release_of_ne hne] at hst'
      exact hne hst'
    obtain ⟨hsrc, hdst, -⟩ := h r hmem hst hexchanged
    obtain ⟨hsrc', hdst'⟩ := (exchanged_iff hsrc hdst).mp hexchanged
    refine FileRow.release_of_mem (fun e he => ?_) ((mem_tokenPrepFiles hmem).mpr ⟨hst, hsrc', hdst', rfl⟩) hst'
    obtain ⟨x, hx, rfl⟩ := List.mem_map.mp he
    obtain ⟨hx, hread⟩ := List.mem_filter.mp hx
    simp only [Bool.and_eq_true, decide_eq_true_eq] at hread
    obtain ⟨⟨hxst, hxsrc⟩, hxdst⟩ := hread
    have hexchanged := (exchanged_iff (refreshed_isSome hxsrc) (refreshed_isSome hxdst)).mpr ⟨hxsrc, hxdst⟩
    obtain ⟨st, hname, hne⟩ := (Option.any_eq_true _ _).mp (h x hx hxst hexchanged).2.2
    exact ⟨st, hname, by simpa using hne⟩
  released := by
    intro r hr r' hr' hst hst'
    rw [updateTokenPrepFiles_row hr] at hr'
    obtain rfl := Option.some.inj hr'
    rcases r.release_cases db.tokenPrepFiles with heq | ⟨name, st, hmem, hname, -, heq⟩
    · rw [heq] at hst'
      exact absurd hst hst'
    · obtain ⟨-, -, -, rfl⟩ := (mem_tokenPrepFiles hr).mp hmem
      rw [heq]
      exact hname
  untouched := by
    intro r hr hwaits
    rw [updateTokenPrepFiles_row hr]
    rcases r.release_cases db.tokenPrepFiles with heq | ⟨name, st, hmem, -⟩
    · rw [heq]
    · obtain ⟨-, hsrc, hdst, -⟩ := (mem_tokenPrepFiles hr).mp hmem
      rw [(exchanged_iff (refreshed_isSome hsrc) (refreshed_isSome hdst)).mpr ⟨hsrc, hdst⟩] at hwaits
      cases hwaits

end release

/-! ## The failures -/

/-- The exchange of the token has failed. -/
def exchangeFailed (failedExchanges : List (String × String)) (t : Option String) : Bool :=
  failedExchanges.any fun e => t = some e.1

def FileRow.refersTo (tokenId : String) (r : FileRow) : Bool :=
  r.fileState = .tokenPrep && (r.srcTokenId = some tokenId || r.dstTokenId = some tokenId)

/-- A `TOKEN_PREP` file with a token whose exchange has failed. -/
def FileRow.doomed (failedExchanges : List (String × String)) (r : FileRow) : Prop :=
  r.fileState = .tokenPrep ∧
    (exchangeFailed failedExchanges r.srcTokenId = true ∨ exchangeFailed failedExchanges r.dstTokenId = true)

instance (failedExchanges : List (String × String)) (r : FileRow) : Decidable (r.doomed failedExchanges) :=
  inferInstanceAs (Decidable (_ ∧ _))

def sourceText : String := "Failed to get refresh token for source token: "

def destinationText : String := "Failed to get refresh token for destination token: "

/-- The files with a failed token are failed, no other is, and the reason names a side whose token failed. -/
structure FailsExchanges (failedExchanges : List (String × String)) (db db' : Db) : Prop where
  failed_iff : ∀ r ∈ db.files.rows, r.fileState ≠ .failed →
    (db'.fileState? r.fileId = some .failed ↔ r.doomed failedExchanges)
  side : ∀ r ∈ db.files.rows, r.doomed failedExchanges → ∃ r', db'.files.find? r.fileId = some r' ∧
    ((exchangeFailed failedExchanges r.srcTokenId = true ∧ ∃ e ∈ failedExchanges, r'.reason = some (sourceText ++ e.2)) ∨
      (exchangeFailed failedExchanges r.dstTokenId = true ∧
        ∃ e ∈ failedExchanges, r'.reason = some (destinationText ++ e.2)))

/-- The token that the reason is about has failed: that of the source if the file has one, else that of the
destination. -/
def Db.BlamesRightly (failedExchanges : List (String × String)) (db : Db) : Prop :=
  ∀ r ∈ db.files.rows, r.doomed failedExchanges →
    exchangeFailed failedExchanges (if r.srcTokenId.getD "" ≠ "" then r.srcTokenId else r.dstTokenId) = true

instance (failedExchanges : List (String × String)) (db : Db) : Decidable (db.BlamesRightly failedExchanges) :=
  inferInstanceAs (Decidable (∀ r ∈ db.files.rows, r.doomed failedExchanges → _))

def exchangeReason (message : String) (r : FileRow) : String :=
  if r.srcTokenId.getD "" ≠ "" then sourceText ++ message else destinationText ++ message

section failures

variable {node : Node} {db : Db} {f : Nat} {r : FileRow} {failedExchanges : List (String × String)}

theorem failTransfers_eq (node : Node) (failedExchanges : List (String × String)) :
    failTransfersWithFailedTokenExchange node failedExchanges = failedExchanges.forM fun e =>
      recoverSelected node .failed (FileRow.refersTo e.1) (exchangeReason e.2) := rfl

theorem exchangeFailed_iff {t : Option String} : exchangeFailed failedExchanges t = true ↔
    ∃ e ∈ failedExchanges, t = some e.1 := by
  simp [exchangeFailed]

theorem doomed_iff : r.doomed failedExchanges ↔ ∃ e ∈ failedExchanges, r.refersTo e.1 = true := by
  simp only [FileRow.doomed, exchangeFailed_iff, FileRow.refersTo, Bool.and_eq_true, Bool.or_eq_true, decide_eq_true_eq]
  constructor
  · rintro ⟨hst, ⟨e, he, ht⟩ | ⟨e, he, ht⟩⟩
    · exact ⟨e, he, hst, .inl ht⟩
    · exact ⟨e, he, hst, .inr ht⟩
  · rintro ⟨e, he, hst, ht | ht⟩
    · exact ⟨hst, .inl ⟨e, he, ht⟩⟩
    · exact ⟨hst, .inr ⟨e, he, ht⟩⟩

/-- A doomed file is failed, for one of its tokens that has failed. -/
theorem failTransfers_fails (node : Node) (hdb : db.Keyed) (hr : db.files.find? f = some r) (hdoomed : r.doomed failedExchanges) :
    ∃ r', ((failTransfersWithFailedTokenExchange node failedExchanges).alone db).files.find? f = some r' ∧
      r'.fileState = .failed ∧ ∃ e ∈ failedExchanges, r'.reason = some (exchangeReason e.2 r) := by
  obtain ⟨r', hr', hst', e, he, -, hreason⟩ := recoverEach_stores node .failed (fun e => FileRow.refersTo (Prod.fst e))
    (fun e => exchangeReason (Prod.snd e)) hdb hr (by simp [hdoomed.1]) (by simp [refused, hdoomed.1]) (by simp) (by simp)
    (fun e r hst => by simp [FileRow.refersTo, hst]) (doomed_iff.mp hdoomed)
  exact ⟨r', hr', hst', e, he, hreason⟩

/-- The file neither waits for tokens nor has failed. -/
def Db.Elsewhere (f : Nat) (db : Db) : Prop :=
  ∃ r, db.files.find? f = some r ∧ r.fileState ≠ .failed ∧ r.fileState ≠ .tokenPrep

def Stmt.KeepsElsewhere (f : Nat) (s : Stmt) : Prop :=
  ∀ db : Db, db.Elsewhere f → (s.exec db).2.Elsewhere f

theorem keepsElsewhere_file {u : FileUpdate} (h : ∀ r, r.fileId = f → u.selects r = true →
    u.writes?.all (fun st => st ≠ .failed && st ≠ .tokenPrep) = true) : Stmt.KeepsElsewhere f (.file u) := by
  rintro db ⟨r, hr, hfailed, hprep⟩
  refine ⟨_, by rw [exec_file_find?, hr, Option.map_some], ?_⟩
  split
  · rename_i hsel
    have hwrites := h r (Table.find?_some hr) hsel
    rw [u.sets_fileState]
    cases hw : u.writes? with
    | none => exact ⟨hfailed, hprep⟩
    | some st =>
        rw [hw] at hwrites
        simpa using hwrites
  · exact ⟨hfailed, hprep⟩

/-- The status of another file, where it changes this one, has it submitted or canceled. -/
theorem recoverFile_elsewhere {x : FileRow} (hj : x.jobId ≠ "") (hid : x.fileId ≠ 0) (hne : x.fileId ≠ f)
    (st : FileState) (message : String) :
    (recoverFile node st message x).Issues (Stmt.KeepsElsewhere f) := by
  apply issues_recoverFile hj hid
  case hjob => exact fun u db hdb => hdb
  case hcas =>
    intro u hu
    refine keepsElsewhere_file fun r hr hsel => ?_
    simp [FileUpdate.selects, hr, hu, Ne.symm hne] at hsel
  all_goals
    intros
    exact keepsElsewhere_file fun _ _ _ => rfl

theorem failTransfers_elsewhere (node : Node) (failedExchanges : List (String × String)) (hdb : db.Keyed)
    (h : db.Elsewhere f) :
    ((failTransfersWithFailedTokenExchange node failedExchanges).alone db).Elsewhere f := by
  rw [failTransfers_eq]
  refine (Op.alone_forM (I := fun db => db.Keyed ∧ db.Elsewhere f) (fun e _ db hdb => ?_) ⟨hdb, h⟩).2
  refine ⟨recoverSelected_keyed hdb.1 _, ?_⟩
  refine recoverSelected_run (P := Stmt.KeepsElsewhere f) _ (fun x hx hsel => ?_) (fun s db hs => hs db) hdb.2
  refine recoverFile_elsewhere (hdb.1 x hx).1 (hdb.1 x hx).2 (fun heq => ?_) _ _
  obtain ⟨r, hr, -, hprep⟩ := hdb.2
  rw [← heq, Table.find?_key hx] at hr
  rw [Option.some.inj hr] at hsel
  simp [FileRow.refersTo, hprep] at hsel

/-- No other file is failed. -/
theorem failTransfers_failed_iff (hdb : db.Keyed) (hr : r ∈ db.files.rows) (hst : r.fileState ≠ .failed) :
    ((failTransfersWithFailedTokenExchange node failedExchanges).alone db).fileState? r.fileId = some .failed ↔
      r.doomed failedExchanges := by
  have hfind := Table.find?_key hr
  constructor
  · intro hfailed
    by_contra hnot
    by_cases hprep : r.fileState = .tokenPrep
    · have hskip : ∀ e ∈ failedExchanges, r.refersTo e.1 = false := by
        intro e he
        rw [← Bool.not_eq_true]
        exact fun hsel => hnot (doomed_iff.mpr ⟨e, he, hsel⟩)
      rw [failTransfers_eq, Db.fileState?, recoverEach_spares hdb hfind (by simp [hprep]) hskip] at hfailed
      simp [hprep] at hfailed
    · obtain ⟨r', hr', hne, -⟩ := failTransfers_elsewhere node failedExchanges hdb ⟨r, hfind, hst, hprep⟩
      rw [Db.fileState?, hr', Option.map_some] at hfailed
      exact hne (Option.some.inj hfailed)
  · intro hdoomed
    obtain ⟨r', hr', hst', -⟩ := failTransfers_fails node hdb hfind hdoomed
    rw [Db.fileState?, hr', Option.map_some, hst']

theorem sourceText_ne (m m' : String) : sourceText ++ m ≠ destinationText ++ m' := by
  intro h
  have hsource : sourceText.toList[32]? = some 's' := by decide +kernel
  have hdestination : destinationText.toList[32]? = some 'd' := by decide +kernel
  have hside : (sourceText ++ m).toList[32]? = (destinationText ++ m').toList[32]? := by rw [h]
  rw [String.toList_append, String.toList_append, List.getElem?_append_left (by decide +kernel),
    List.getElem?_append_left (by decide +kernel), hsource, hdestination] at hside
  simp at hside

theorem blamesRightly_of_fails (hdb : db.Keyed) (h : FailsExchanges failedExchanges db
    ((failTransfersWithFailedTokenExchange node failedExchanges).alone db)) : db.BlamesRightly failedExchanges := by
  intro r hr hdoomed
  obtain ⟨r', hr', -, e, -, hreason⟩ := failTransfers_fails node hdb (Table.find?_key hr) hdoomed
  obtain ⟨r'', hr'', hside⟩ := h.side r hr hdoomed
  rw [hr'] at hr''
  obtain rfl := Option.some.inj hr''
  rw [hreason, exchangeReason] at hside
  split
  · rename_i hsrc
    rw [if_pos hsrc] at hside
    rcases hside with ⟨hfailed, -⟩ | ⟨-, e', -, heq⟩
    · exact hfailed
    · exact absurd (Option.some.inj heq) (sourceText_ne _ _)
  · rename_i hsrc
    rw [if_neg hsrc] at hside
    rcases hside with ⟨-, e', -, heq⟩ | ⟨hfailed, -⟩
    · exact absurd (Option.some.inj heq).symm (sourceText_ne _ _)
    · exact hfailed

theorem fails_of_blamesRightly (node : Node) (hdb : db.Keyed) (h : db.BlamesRightly failedExchanges) :
    FailsExchanges failedExchanges db ((failTransfersWithFailedTokenExchange node failedExchanges).alone db) where
  failed_iff := fun r hr hst => failTransfers_failed_iff hdb hr hst
  side := by
    intro r hr hdoomed
    obtain ⟨r', hr', -, e, he, hreason⟩ := failTransfers_fails node hdb (Table.find?_key hr) hdoomed
    have hblamed := h r hr hdoomed
    refine ⟨r', hr', ?_⟩
    rw [exchangeReason] at hreason
    split at hblamed
    · rename_i hsrc
      rw [if_pos hsrc] at hreason
      exact .inl ⟨hblamed, e, he, hreason⟩
    · rename_i hsrc
      rw [if_neg hsrc] at hreason
      exact .inr ⟨hblamed, e, he, hreason⟩

end failures

/-- The preparation ends where every file whose tokens are there has both of them and an initial state to go to; the
failed exchanges are reported rightly where no file with a source token fails for the destination alone. -/
theorem token_prep_ends_iff (node : Node) (db : Db) (failedExchanges : List (String × String)) (hdb : db.Keyed) :
    (TokenPrepEnds db (updateTokenPrepFiles.alone db) ↔ db.Releasable) ∧
      (FailsExchanges failedExchanges db ((failTransfersWithFailedTokenExchange node failedExchanges).alone db) ↔
        db.BlamesRightly failedExchanges) :=
  ⟨⟨releasable_of_ends, ends_of_releasable⟩, ⟨blamesRightly_of_fails hdb, fails_of_blamesRightly node hdb⟩⟩

/-- Token `a` has been exchanged, token `b` has not. File `1` may go, file `2` may not. -/
def tokenPrepDb : Db where
  files := .ofRows [
    { fileId := 1, jobId := "j", fileState := .tokenPrep, srcTokenId := some "a", dstTokenId := some "a"
      fileStateInitial := some "STAGING" },
    { fileId := 2, jobId := "j", fileState := .tokenPrep, srcTokenId := some "b", dstTokenId := some "a" }]
  jobs := .ofRows [{ jobId := "j", jobState := .submitted, jobType := some .regular }]
  tokens := .ofRows [{ tokenId := "a", refreshToken := some "r" }, { tokenId := "b" }]

theorem token_prep_ends_oneSide : tokenPrepDb.Keyed ∧
    TokenPrepEnds tokenPrepDb (updateTokenPrepFiles.alone tokenPrepDb) ∧
    FailsExchanges [("b", "denied")] tokenPrepDb
      ((failTransfersWithFailedTokenExchange { hostname := "h" } [("b", "denied")]).alone tokenPrepDb) :=
  have h := token_prep_ends_iff { hostname := "h" } tokenPrepDb [("b", "denied")] (by decide)
  ⟨by decide, h.1.mpr (by decide +kernel), h.2.mpr (by decide +kernel)⟩

/-- A file with a source token only, and one with two tokens. -/
def oneTokenDb : Db where
  files := .ofRows [
    { fileId := 1, jobId := "j", fileState := .tokenPrep, srcTokenId := some "a" },
    { fileId := 2, jobId := "j", fileState := .tokenPrep, srcTokenId := some "a", dstTokenId := some "b" }]
  jobs := .ofRows [{ jobId := "j", jobState := .submitted, jobType := some .regular }]
  tokens := .ofRows [{ tokenId := "a", refreshToken := some "r" }, { tokenId := "b" }]

/-- The first file waits for ever, and the failure of the destination token of the second is reported as one of its source
token. -/
theorem token_prep_never_ends : oneTokenDb.Keyed ∧
    ¬TokenPrepEnds oneTokenDb (updateTokenPrepFiles.alone oneTokenDb) ∧
    ¬FailsExchanges [("b", "denied")] oneTokenDb
      ((failTransfersWithFailedTokenExchange { hostname := "h" } [("b", "denied")]).alone oneTokenDb) := by
  refine ⟨by decide, fun h => ?_, fun h => ?_⟩
  · exact absurd (releasable_of_ends h) (by decide +kernel)
  · exact absurd (blamesRightly_of_fails (by decide) h) (by decide +kernel)

end Fts3.MySql
