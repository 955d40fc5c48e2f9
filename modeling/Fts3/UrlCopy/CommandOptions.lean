import Fts3.UrlCopy.CommandCalls

/-!
# The options of the process are the ones that are wanted
-/

namespace Fts3.UrlCopy

open Fts3.Text Fts3.Getopt

/-! ## The switch -/

/-- The checksum `x` stands for none. -/
def receivedText (k : TextKey) (optarg : Option Text) : Text :=
  match k with
  | .checksum => if optarg = some ['x'] then [] else optarg.getD []
  | _ => optarg.getD []

/-- The values of the options that have been returned. -/
def Values.ofArgs (args : ArgKey → Option Text) (flag : FlagKey → Bool) : Values where
  text k := receivedText k (args (.text k))
  metadata k := (args (.metadata k)).getD []
  number k := (args (.number k)).bind fun optarg => (k.lexicalCast optarg).map Int.ofNat
  flag

/-- The options after they have been returned. -/
def UrlCopyOpts.ofArgs (args : ArgKey → Option Text) (flag : FlagKey → Bool) : UrlCopyOpts :=
  (Values.ofArgs args flag).options.setReference fun t =>
    { t with transferMetadata := replaceMetadataString ((args (.metadata .transferMetadata)).getD []) }

section switch

variable {args : ArgKey → Option Text} {flag : FlagKey → Bool}

/-- The sentinel changes nothing. -/
theorem ofArgs_checksum (h : args (.text .checksum) = none ∨ args (.text .checksum) = some ['x']) :
    UrlCopyOpts.ofArgs (Function.update args (.text .checksum) (some ['x'])) flag = .ofArgs args flag := by
  have htext : (fun k => receivedText k (Function.update args (.text .checksum) (some ['x']) (.text k))) =
      fun k => receivedText k (args (.text k)) := by
    funext k
    by_cases hk : k = .checksum
    · subst hk
      rw [Function.update_self]
      cases h with
      | inl h => simp [receivedText, h]
      | inr h => rw [h]
    · rw [Function.update_of_ne fun heq => hk (ArgKey.text.inj heq)]
  unfold UrlCopyOpts.ofArgs Values.ofArgs
  rw [htext]
  rfl

theorem setText_ofArgs {k : TextKey} {optarg : Text} (hne : optarg ≠ [])
    (hfresh : args (.text k) = none ∨ args (.text k) = some optarg) :
    (UrlCopyOpts.ofArgs args flag).setText optarg k =
      .ofArgs (Function.update args (.text k) (some optarg)) flag := by
  cases k with
  | checksum =>
      by_cases hx : optarg = ['x']
      · rw [hx] at hfresh ⊢
        rw [ofArgs_checksum hfresh]
        rfl
      · have hsome : some optarg ≠ some ['x'] := fun h => hx (Option.some.inj h)
        simp only [UrlCopyOpts.setText, UrlCopyOpts.setReference, setChecksum, if_neg hx, UrlCopyOpts.ofArgs,
          Values.options, Values.ofArgs, receivedText, Function.update_self, if_neg hsome, Option.getD_some]
        rfl
  | logDir =>
      simp only [UrlCopyOpts.setText, UrlCopyOpts.setReference, UrlCopyOpts.ofArgs, Values.options, Values.ofArgs,
        receivedText, Function.update_self, Option.getD_some, if_neg hne]
      rfl
  | msgDir =>
      simp only [UrlCopyOpts.setText, UrlCopyOpts.setReference, UrlCopyOpts.ofArgs, Values.options, Values.ofArgs,
        receivedText, Function.update_self, Option.getD_some, if_neg hne]
      rfl
  | _ => rfl

theorem setMetadata_ofArgs (k : MetadataKey) (optarg : Text) :
    (UrlCopyOpts.ofArgs args flag).setMetadata optarg k =
      .ofArgs (Function.update args (.metadata k) (some optarg)) flag := by
  cases k <;> rfl

theorem setNumber_ofArgs {k : NumberKey} {optarg : Text} {n : Nat} (h : k.lexicalCast optarg = some n) :
    (UrlCopyOpts.ofArgs args flag).setNumber n k =
      .ofArgs (Function.update args (.number k) (some optarg)) flag := by
  have hvalues : Values.ofArgs (Function.update args (.number k) (some optarg)) flag =
      { Values.ofArgs args flag with number := Function.update (Values.ofArgs args flag).number k (some (n : Int)) } := by
    have hnumber : (Values.ofArgs (Function.update args (.number k) (some optarg)) flag).number =
        Function.update (Values.ofArgs args flag).number k (some (n : Int)) := by
      funext k'
      by_cases hk : k' = k
      · subst hk
        simp [Values.ofArgs, h]
      · rw [Function.update_of_ne hk]
        simp [Values.ofArgs, hk]
    rw [← hnumber]
    rfl
  rw [UrlCopyOpts.ofArgs, UrlCopyOpts.ofArgs, hvalues]
  cases k <;> rfl

/-- The two versions of the protocol exclude each other. -/
theorem setFlag_ofArgs {k : FlagKey} (hipv6 : k = .ipv6 → flag .ipv4 = false) :
    (UrlCopyOpts.ofArgs args flag).setFlag k = .ofArgs args (Function.update flag k true) := by
  cases k with
  | ipv6 =>
      have hipv4 : Function.update flag .ipv6 true .ipv4 = false := hipv6 rfl
      simp only [UrlCopyOpts.setFlag, UrlCopyOpts.setReference, UrlCopyOpts.ofArgs, Values.options, Values.ofArgs, hipv4,
        Function.update_self, if_true]
      rfl
  | _ => rfl

/-- The argument of the option can be read. -/
def Readable : Parsed Opt → Prop
  | .option (.key (.arg (.number k))) optarg => (k.lexicalCast (optarg.getD [])).isSome
  | _ => True

variable {w : Values}

theorem argument_text_ne_nil {k : TextKey} {optarg : Text} (h : w.argument (.text k) = some optarg) : optarg ≠ [] := by
  rw [Values.argument] at h
  split at h
  · cases h
  · rename_i hne
    rwa [← Option.some.inj h]

/-- The arguments and the flags of the options that have been returned. -/
structure Collected (args : ArgKey → Option Text) (flag : FlagKey → Bool) (l : List (Parsed Opt))
    (args' : ArgKey → Option Text) (flag' : FlagKey → Bool) : Prop where
  args : ∀ k optarg, args' k = some optarg ↔ args k = some optarg ∨ .option (.key (.arg k)) (some optarg) ∈ l
  flag : ∀ k, flag' k = true ↔ flag k = true ∨ .option (.flag k) none ∈ l

/-- Only what is wanted has been returned so far. -/
structure Within (args : ArgKey → Option Text) (flag : FlagKey → Bool) (w : Values) : Prop where
  args : ∀ k optarg, args k = some optarg → w.argument k = some optarg
  flag : ∀ k, flag k = true → w.flag k = true

theorem collected_flag (k : FlagKey) :
    Collected args flag [.option (.flag k) none] args (Function.update flag k true) where
  args := by simp
  flag k' := by
    by_cases hk : k' = k
    · simp [hk]
    · simp [hk, Opt.flag]

theorem collected_arg (h : Within args flag w) {k : ArgKey} {optarg : Text} (hk : w.argument k = some optarg) :
    Collected args flag [.option (.key (.arg k)) (some optarg)] (Function.update args k (some optarg)) flag where
  args k' optarg' := by
    by_cases hk' : k' = k
    · subst hk'
      rw [Function.update_self, Option.some.injEq]
      constructor
      · rintro rfl
        exact .inr List.mem_cons_self
      · rintro (hargs | hmem)
        · exact Option.some.inj (hk.symm.trans (h.args _ _ hargs))
        · rw [List.mem_singleton] at hmem
          injection hmem with _ hmem
          exact (Option.some.inj hmem).symm
    · simp [hk']
  flag := by simp [Opt.flag]

theorem Within.collected (h : Within args flag w) {args' : ArgKey → Option Text} {flag' : FlagKey → Bool} {p : Parsed Opt}
    (hp : w.Returns p) (hcollected : Collected args flag [p] args' flag') : Within args' flag' w where
  args k optarg hk := by
    rw [hcollected.args, List.mem_singleton] at hk
    cases hk with
    | inl hk => exact h.args k optarg hk
    | inr hk =>
        subst hk
        rcases hp with ⟨f, hf, -⟩ | ⟨a, v, ha, hv⟩
        · cases hf
        · cases ha
          exact hv
  flag k hk := by
    rw [hcollected.flag, List.mem_singleton] at hk
    cases hk with
    | inl hk => exact h.flag k hk
    | inr hk =>
        subst hk
        rcases hp with ⟨f, hf, hset⟩ | ⟨a, v, ha, -⟩
        · cases hf
          exact hset
        · cases ha

/-- One option of those that are wanted. -/
theorem step_ofArgs (hexclusive : ¬ (w.flag .ipv6 = true ∧ w.flag .ipv4 = true)) (h : Within args flag w) {p : Parsed Opt}
    (hp : w.Returns p) :
    ¬ Readable p ∧ (UrlCopyOpts.ofArgs args flag).step p = .error .badLexicalCast ∨
    Readable p ∧ ∃ args' flag', Collected args flag [p] args' flag' ∧
      (UrlCopyOpts.ofArgs args flag).step p = .ok (.ofArgs args' flag') := by
  rcases hp with ⟨k, rfl, hk⟩ | ⟨k, optarg, rfl, hk⟩
  · have hipv4 : k = .ipv6 → flag .ipv4 = false := by
      rintro rfl
      cases hflag : flag .ipv4 with
      | false => rfl
      | true => exact absurd ⟨hk, h.flag _ hflag⟩ hexclusive
    refine .inr ⟨trivial, args, _, collected_flag k, ?_⟩
    rw [← setFlag_ofArgs hipv4]
    rfl
  · have hcollected := collected_arg h hk
    cases k with
    | text k =>
        have hfresh : args (.text k) = none ∨ args (.text k) = some optarg := by
          cases hargs : args (.text k) with
          | none => exact .inl rfl
          | some optarg' => exact .inr ((h.args _ _ hargs).symm.trans hk)
        refine .inr ⟨trivial, _, flag, hcollected, ?_⟩
        rw [← setText_ofArgs (argument_text_ne_nil hk) hfresh]
        rfl
    | metadata k =>
        refine .inr ⟨trivial, _, flag, hcollected, ?_⟩
        rw [← setMetadata_ofArgs]
        rfl
    | number k =>
        cases hcast : k.lexicalCast optarg with
        | none =>
            refine .inl ⟨by simp [Readable, hcast], ?_⟩
            simp [UrlCopyOpts.step, hcast]
        | some n =>
            refine .inr ⟨by simp [Readable, hcast], _, flag, hcollected, ?_⟩
            rw [← setNumber_ofArgs hcast]
            simp [UrlCopyOpts.step, hcast]

/-- The options that are wanted, one after the other. -/
theorem foldlM_ofArgs (hexclusive : ¬ (w.flag .ipv6 = true ∧ w.flag .ipv4 = true)) (h : Within args flag w)
    {l : List (Parsed Opt)} (hl : ∀ p ∈ l, w.Returns p) :
    (∃ p ∈ l, ¬ Readable p) ∧ l.foldlM UrlCopyOpts.step (.ofArgs args flag) = .error .badLexicalCast ∨
    (∀ p ∈ l, Readable p) ∧ ∃ args' flag', Collected args flag l args' flag' ∧
      l.foldlM UrlCopyOpts.step (.ofArgs args flag) = .ok (.ofArgs args' flag') := by
  induction l generalizing args flag with
  | nil => exact .inr ⟨by simp, args, flag, ⟨by simp, by simp⟩, rfl⟩
  | cons p l ih =>
      have hp : w.Returns p := hl p List.mem_cons_self
      rw [List.foldlM_cons]
      rcases step_ofArgs hexclusive h hp with ⟨hread, hstep⟩ | ⟨hread, args', flag', hcollected, hstep⟩
      · rw [hstep]
        exact .inl ⟨⟨p, List.mem_cons_self, hread⟩, rfl⟩
      · rw [hstep]
        have hrest := ih (h.collected hp hcollected) fun p hp => hl p (List.mem_cons_of_mem _ hp)
        rcases hrest with ⟨⟨p', hp', hread'⟩, hfold⟩ | ⟨hread', args'', flag'', hcollected', hfold⟩
        · exact .inl ⟨⟨p', List.mem_cons_of_mem _ hp', hread'⟩, hfold⟩
        · refine .inr ⟨List.forall_mem_cons.mpr ⟨hread, hread'⟩, args'', flag'', ⟨?_, ?_⟩, hfold⟩
          · intro k optarg
            rw [hcollected'.args, hcollected.args, List.mem_singleton, List.mem_cons, or_assoc, eq_comm]
          · intro k
            rw [hcollected'.flag, hcollected.flag, List.mem_singleton, List.mem_cons, or_assoc, eq_comm]

theorem ofArgs_initial : UrlCopyOpts.ofArgs (fun _ => none) (fun _ => false) = {} := rfl

/-- The options after all that are wanted have been returned. -/
theorem foldlM_step (hexclusive : ¬ (w.flag .ipv6 = true ∧ w.flag .ipv4 = true)) {l : List (Parsed Opt)}
    (hl : ∀ p, p ∈ l ↔ w.Returns p) :
    (∃ p ∈ l, ¬ Readable p) ∧ l.foldlM UrlCopyOpts.step {} = .error .badLexicalCast ∨
    (∀ p ∈ l, Readable p) ∧ l.foldlM UrlCopyOpts.step {} = .ok (.ofArgs w.argument w.flag) := by
  have hwithin : Within (fun _ => none) (fun _ => false) w := ⟨by simp, by simp⟩
  rw [← ofArgs_initial]
  rcases foldlM_ofArgs hexclusive hwithin fun p hp => (hl p).mp hp with hbad | ⟨hread, args', flag', hcollected, hfold⟩
  · exact .inl hbad
  · have hargs : args' = w.argument := by
      funext k
      ext optarg
      rw [hcollected.args, hl]
      simp [Values.Returns, Opt.flag]
    have hflag : flag' = w.flag := by
      funext k
      rw [Bool.eq_iff_iff, hcollected.flag, hl]
      simp [Values.Returns, Opt.flag]
    rw [hargs, hflag] at hfold
    exact .inr ⟨hread, hfold⟩

end switch

/-! ## The values agree -/

theorem lexicalCastStored_printInt_eq {w : Nat} (hw : w ≠ 0) {i : Int} :
    lexicalCastStored w (printInt i) = some i.toNat ↔ 0 ≤ i ∧ i < 2 ^ (w - 1) := by
  have hpow : (2 : Int) ^ w = 2 * 2 ^ (w - 1) := by
    rw [← Int.pow_succ', Nat.sub_add_cancel (Nat.pos_of_ne_zero hw)]
  rw [lexicalCastStored, lexicalCastSigned_printInt hw]
  have hpos : (0 : Int) < 2 ^ (w - 1) := Int.pow_pos (by decide)
  generalize (2 : Int) ^ (w - 1) = m at *
  rw [hpow]
  split
  · rename_i hrange
    rw [Option.map_some, Option.some.injEq]
    constructor
    · intro heq
      refine ⟨?_, hrange.2⟩
      by_contra hneg
      have hmod : i % (2 * m) = i + 2 * m := by
        rw [Int.emod_eq_add_self_emod, Int.emod_eq_of_lt (by omega) (by omega)]
      omega
    · intro h
      rw [Int.emod_eq_of_lt h.1 (by omega)]
  · rename_i hrange
    simp only [Option.map_none, reduceCtorEq, false_iff]
    omega

theorem NumberKey.lexicalCast_printInt_eq {k : NumberKey} {i : Int} :
    k.lexicalCast (printInt i) = some i.toNat ↔ 0 ≤ i ∧ i < k.limit := by
  cases k with
  | fileId | scitag | pingInterval | tcpBuffersize | timeout | debug => exact lexicalCastUnsigned_printInt_eq
  | _ => exact lexicalCastStored_printInt_eq (by decide)

section agree

variable {w : Values}

theorem receivedText_argument (k : TextKey) :
    receivedText k (w.argument (.text k)) = if k = .checksum ∧ w.text k = ['x'] then [] else w.text k := by
  have hgetD : (w.argument (.text k)).getD [] = w.text k := by
    rw [Values.argument]
    split
    · rename_i hnil
      rw [hnil]
      rfl
    · rfl
  have hx : w.argument (.text k) = some ['x'] ↔ w.text k = ['x'] := by
    rw [Values.argument]
    split
    · rename_i hnil
      simp [hnil]
    · rw [Option.some.injEq]
  cases k with
  | checksum =>
      simp only [receivedText, hgetD, hx, true_and]
  | _ => simpa [receivedText] using hgetD

theorem getD_argument_metadata (k : MetadataKey) :
    (w.argument (.metadata k)).getD [] = prepareMetadataString (w.metadata k) := by
  rw [Values.argument]
  split
  · rename_i hnil
    rw [hnil]
    rfl
  · rfl

/-- The values of the process with the metadata as they are reported. -/
def Values.reported (w : Values) : Values :=
  { Values.ofArgs w.argument w.flag with metadata := fun k => replaceMetadataString (prepareMetadataString (w.metadata k)) }

theorem decoded_ofArgs (w : Values) : (UrlCopyOpts.ofArgs w.argument w.flag).decoded = w.reported.options := by
  have hmetadata : (fun k => replaceMetadataString (prepareMetadataString (w.metadata k))) =
      fun k => replaceMetadataString ((w.argument (.metadata k)).getD []) := by
    funext k
    rw [getD_argument_metadata]
  rw [Values.reported, hmetadata]
  rfl

/-- The metadata among the options. -/
def UrlCopyOpts.metadata (opts : UrlCopyOpts) : MetadataKey → Text
  | .userDn => opts.userDn
  | .fileMetadata => opts.referenceTransfer.fileMetadata
  | .transferMetadata => opts.referenceTransfer.transferMetadata
  | .jobMetadata => opts.jobMetadata

theorem metadata_options (v : Values) (k : MetadataKey) : v.options.metadata k = v.metadata k := by
  cases k <;> rfl

/-- The numbers among the options. -/
def UrlCopyOpts.number (opts : UrlCopyOpts) : NumberKey → Int
  | .fileId => opts.referenceTransfer.fileId
  | .userFilesize => opts.referenceTransfer.userFileSize
  | .scitag => opts.referenceTransfer.scitag
  | .pingInterval => opts.pingInterval
  | .level => opts.optimizerLevel
  | .nstreams => opts.nStreams
  | .tcpBuffersize => opts.tcpBuffersize
  | .timeout => opts.timeout
  | .secPerMb => opts.addSecPerMb
  | .retry => opts.retry
  | .retryMax => opts.retryMax
  | .debug => opts.debugLevel

theorem toNat_number_options {v : Values} {k : NumberKey} {i : Int} (h : v.number k = some i) :
    (v.options.number k).toNat = i.toNat := by
  cases k with
  | fileId | userFilesize | scitag => 
      exact (Int.toNat_natCast _).trans (congrArg (fun n : Option Int => (n.getD 0).toNat) h)
  | _ => exact congrArg (fun n : Option Int => (n.getD _).toNat) h

theorem readable_iff {l : List (Parsed Opt)} (hl : ∀ p, p ∈ l ↔ w.Returns p) :
    (∀ p ∈ l, Readable p) ↔ ∀ k i, w.number k = some i → (k.lexicalCast (printInt i)).isSome := by
  constructor
  · intro h k i hi
    have hmem : .option (.key (.arg (.number k))) (some (printInt i)) ∈ l := by
      rw [hl]
      exact .inr ⟨.number k, printInt i, rfl, by simp [Values.argument, hi]⟩
    exact h _ hmem
  · intro h p hp
    rw [hl] at hp
    rcases hp with ⟨f, rfl, -⟩ | ⟨a, v, rfl, hv⟩
    · trivial
    · cases a with
      | text k => trivial
      | metadata k => trivial
      | number k =>
          rw [Values.argument, Option.map_eq_some_iff] at hv
          obtain ⟨i, hi, rfl⟩ := hv
          exact h k i hi

/-- The process has the values that are wanted. -/
theorem reported_options_iff :
    (∀ k i, w.number k = some i → (k.lexicalCast (printInt i)).isSome) ∧ w.reported.options = w.options ↔
      w.text .checksum ≠ ['x'] ∧ (∀ k, '?' ∉ w.metadata k) ∧ ∀ k i, w.number k = some i → 0 ≤ i ∧ i < k.limit := by
  constructor
  · rintro ⟨hcast, heq⟩
    refine ⟨fun hx => ?_, fun k => ?_, fun k i hi => ?_⟩
    · have halgorithm := congrArg (·.referenceTransfer.checksumAlgorithm) heq
      simp only [Values.options, Values.reported, Values.ofArgs, receivedText_argument, hx] at halgorithm
      exact absurd halgorithm (by decide)
    · have hmetadata := congrArg (·.metadata k) heq
      rw [metadata_options, metadata_options] at hmetadata
      exact replace_prepareMetadataString_eq_self.mp hmetadata
    · obtain ⟨n, hn⟩ := Option.isSome_iff_exists.mp (hcast k i hi)
      have hreported : w.reported.number k = some (n : Int) := by
        simp [Values.reported, Values.ofArgs, Values.argument, hi, hn]
      have hnumber := congrArg (fun opts => (opts.number k).toNat) heq
      rw [toNat_number_options hreported, toNat_number_options hi, Int.toNat_natCast] at hnumber
      rw [← NumberKey.lexicalCast_printInt_eq, hn, hnumber]
  · rintro ⟨hx, hmark, hrange⟩
    have hcast (k : NumberKey) (i : Int) (hi : w.number k = some i) : k.lexicalCast (printInt i) = some i.toNat :=
      NumberKey.lexicalCast_printInt_eq.mpr (hrange k i hi)
    refine ⟨fun k i hi => by simp [hcast k i hi], ?_⟩
    have hvalues : w.reported = w := by
      have htext : w.reported.text = w.text := by
        funext k
        simp only [Values.reported, Values.ofArgs, receivedText_argument]
        rw [if_neg]
        rintro ⟨rfl, h⟩
        exact hx h
      have hmetadata : w.reported.metadata = w.metadata := by
        funext k
        exact replace_prepareMetadataString_eq_self.mpr (hmark k)
      have hnumber : w.reported.number = w.number := by
        funext k
        cases hi : w.number k with
        | none => simp [Values.reported, Values.ofArgs, Values.argument, hi]
        | some i =>
            have hpos := (hrange k i hi).1
            simp [Values.reported, Values.ofArgs, Values.argument, hi, hcast k i hi, Int.toNat_of_nonneg hpos]
      calc w.reported = ⟨w.reported.text, w.reported.metadata, w.reported.number, w.flag⟩ := rfl
        _ = w := by rw [htext, hmetadata, hnumber]
    rw [hvalues]

end agree

/-! ## The transfers -/

section transfers

/-- Which transfer is taken for the common values does not decide whether a file can be read. -/
theorem exists_createFromString (reference reference' : Transfer) {line : Text} {t : Transfer}
    (h : createFromString reference line = .ok t) : ∃ t', createFromString reference' line = .ok t' := by
  rw [createFromString, createFromTokens] at h ⊢
  split at h
  · cases h
  · rename_i hlength
    obtain ⟨fileId, hfileId, h⟩ := exists_of_bind_eq_ok h
    obtain ⟨size, hsize, h⟩ := exists_of_bind_eq_ok h
    obtain ⟨scitag, hscitag, h⟩ := exists_of_bind_eq_ok h
    simp only [if_neg hlength, hfileId, hsize, hscitag]
    exact ⟨_, rfl⟩

theorem exists_initListFromFile (reference reference' : Transfer) {text : Text}
    (h : ∃ t ts, initListFromFile reference text = .ok (t :: ts)) :
    ∃ t ts, initListFromFile reference' text = .ok (t :: ts) := by
  obtain ⟨t, ts, h⟩ := h
  rw [initListFromFile, mapM_eq_ok] at h
  have hall : ∀ (lines : List Text) (ts : List Transfer),
      List.Forall₂ (fun line t => createFromString reference line = .ok t) lines ts →
      ∃ ts', List.Forall₂ (fun line t => createFromString reference' line = .ok t) lines ts' := by
    intro lines ts hlines
    induction hlines with
    | nil => exact ⟨[], .nil⟩
    | cons hline _ ih =>
        obtain ⟨t', ht'⟩ := exists_createFromString reference reference' hline
        obtain ⟨ts', hts'⟩ := ih
        exact ⟨t' :: ts', .cons ht' hts'⟩
  obtain ⟨ts', hts'⟩ := hall _ _ h
  have hread : initListFromFile reference' text = .ok ts' := mapM_eq_ok.mpr hts'
  cases ts' with
  | nil =>
      have hlength := h.length_eq.symm.trans hts'.length_eq
      cases hlength
  | cons t' ts' => exact ⟨t', ts', hread⟩

theorem initListFromFile_nil (reference : Transfer) : initListFromFile reference [] = .ok [] := rfl

/-- The process has something to transfer. -/
theorem exists_transfers_iff {files : Text → Text} {opts : UrlCopyOpts} :
    (∃ ts, opts.transfers files = .ok ts) ↔
      if opts.bulkFile = [] then
        opts.referenceTransfer.source.fullUri ≠ [] ∧ opts.referenceTransfer.destination.fullUri ≠ []
      else ∃ t ts, initListFromFile {} (files opts.bulkFile) = .ok (t :: ts) := by
  unfold UrlCopyOpts.transfers
  by_cases hbulk : opts.bulkFile = []
  · rw [if_pos hbulk, if_pos hbulk]
    simp only [hbulk, true_and, initListFromFile_nil]
    split
    · rename_i huris
      simp [huris]
    · rename_i huris
      simp [huris]
  · rw [if_neg fun h => hbulk h.1, if_neg hbulk, if_neg hbulk]
    constructor
    · rintro ⟨ts, hts⟩
      refine exists_initListFromFile opts.referenceTransfer {} ?_
      split at hts
      · cases hts
      · rename_i ts' hne hread
        cases ts' with
        | nil => exact absurd rfl hne
        | cons t ts' => exact ⟨t, ts', hread⟩
      · cases hts
    · intro h
      obtain ⟨t, ts, hread⟩ := exists_initListFromFile {} opts.referenceTransfer h
      rw [hread]
      exact ⟨t :: ts, rfl⟩

theorem transfers_eq {files : Text → Text} {opts : UrlCopyOpts} {ts : List Transfer} (h : opts.transfers files = .ok ts)
    (hbulk : opts.bulkFile = []) : ts = [opts.referenceTransfer] := by
  unfold UrlCopyOpts.transfers at h
  simp only [hbulk, true_and, if_true, initListFromFile_nil] at h
  split at h
  · exact (Except.ok.inj h).symm
  · cases h

end transfers

/-! ## The two versions of the protocol -/

section exclusive

def Exclusive (w : Values) : Prop :=
  ¬ (w.flag .ipv6 = true ∧ w.flag .ipv4 = true)

/-- One call decides both. -/
theorem exclusive_wanted (jsonCpp : JsonCpp) (realString : Text → Text) (calls : List Call) :
    Exclusive (Values.wanted jsonCpp realString calls) := by
  have hipv6 : lastWord FlagKey.ipv6.wantedBy calls =
      (lastWord Call.ipv6? calls).map fun set => decide (set = some true) := lastWord_map ..
  have hipv4 : lastWord FlagKey.ipv4.wantedBy calls =
      (lastWord Call.ipv6? calls).map fun set => decide (set = some false) := lastWord_map ..
  simp only [Exclusive, Values.wanted, hipv6, hipv4]
  rcases lastWord Call.ipv6? calls with _ | _ | _ | _ <;> simp

end exclusive

/-! ## Plain arguments -/

section plain

variable {w : Values}

/-- No argument has a blank or a null. -/
theorem plain_argument_iff :
    (∀ k v, w.argument k = some v → ' ' ∉ v ∧ '\x00' ∉ v) ↔
      (∀ k, ' ' ∉ w.text k ∧ '\x00' ∉ w.text k) ∧ ∀ k, '\x00' ∉ w.metadata k := by
  have hnull (text : Text) : '\x00' ∈ prepareMetadataString text ↔ '\x00' ∈ text :=
    mem_prepareMetadataString (by decide) (by decide) (by decide)
  constructor
  · intro h
    constructor
    · intro k
      by_cases hnil : w.text k = []
      · simp [hnil]
      · exact h (.text k) (w.text k) (by simp [Values.argument, hnil])
    · intro k
      by_cases hnil : w.metadata k = []
      · simp [hnil]
      · rw [← hnull]
        exact (h (.metadata k) _ (by simp [Values.argument, hnil])).2
  · rintro ⟨htext, hmetadata⟩ k v hv
    cases k with
    | text k =>
        rw [Values.argument] at hv
        split at hv
        · cases hv
        · rw [← Option.some.inj hv]
          exact htext k
    | metadata k =>
        rw [Values.argument] at hv
        split at hv
        · cases hv
        · rw [← Option.some.inj hv, hnull]
          exact ⟨blank_not_mem_prepareMetadataString _, hmetadata k⟩
    | number k =>
        rw [Values.argument, Option.map_eq_some_iff] at hv
        obtain ⟨i, -, rfl⟩ := hv
        exact ⟨not_mem_printInt (by decide) (by decide), not_mem_printInt (by decide) (by decide)⟩

/-- An argument of the program has none. -/
theorem plain_getArgv {arguments arg optarg : Text} (harg : arg ∈ getArgv arguments) (hsuffix : optarg <:+ arg) :
    ' ' ∉ optarg ∧ '\x00' ∉ optarg := by
  obtain ⟨part, hpart, rfl⟩ := List.mem_map.mp harg
  constructor
  · intro hmem
    exact not_mem_of_mem_splitOn hpart ((List.takeWhile_sublist _).subset (hsuffix.subset hmem))
  · intro hmem
    have hnull := List.mem_takeWhile_imp (hsuffix.subset hmem)
    simp at hnull

variable {c : UrlCopyCmd} {flag : FlagKey → Bool} {stored : ArgKey → Option Text}

theorem mem_returned_iff (h : Holds c flag stored) {p : Parsed Opt} :
    p ∈ returned c ↔ (∃ k, p = .option (.flag k) none ∧ flag k = true) ∨
      ∃ k v, p = .option (.key (.arg k)) (some v) ∧ stored k = some v := by
  rw [returned, List.mem_append, List.mem_map, List.mem_map]
  constructor
  · rintro (⟨k, hk, rfl⟩ | ⟨⟨k, v⟩, hk, rfl⟩)
    · obtain ⟨f, rfl, hf⟩ := (h.flags k).mp hk
      exact .inl ⟨f, rfl, hf⟩
    · obtain ⟨a, rfl, ha⟩ := (h.options k v).mp hk
      exact .inr ⟨a, v, rfl, ha⟩
  · rintro (⟨f, rfl, hf⟩ | ⟨a, v, rfl, ha⟩)
    · exact .inl ⟨.flag f, (h.flags _).mpr ⟨f, rfl, hf⟩, rfl⟩
    · exact .inr ⟨(.arg a, v), (h.options _ v).mpr ⟨a, rfl, ha⟩, rfl⟩

theorem nodup_returned (h : Holds c flag stored) : (returned c).Nodup := by
  rw [returned, List.nodup_append]
  refine ⟨?_, ?_, ?_⟩
  · exact h.flags_nodup.map fun k k' heq => by simpa using heq
  · refine List.Nodup.map_on ?_ h.keys_nodup.of_map
    rintro ⟨k, v⟩ - ⟨k', v'⟩ - heq
    simpa using heq
  · rintro p hp p' hp' rfl
    rw [List.mem_map] at hp hp'
    obtain ⟨k, -, rfl⟩ := hp
    obtain ⟨o, -, ho⟩ := hp'
    cases ho

end plain

/-! ## The round trip -/

section roundTrip

variable {w : Values} {c : UrlCopyCmd} {flag : FlagKey → Bool} {stored : ArgKey → Option Text}

/-- An option that is not wanted is returned before anything is broken up. -/
theorem exists_returned_of_not_wanted (h : Holds c flag stored)
    (hplain : ∀ k v, w.argument k = some v → ' ' ∉ v ∧ '\x00' ∉ v)
    (hstored : ∀ k v, w.argument k = some v → stored k = some v) {k : ArgKey} {v : Text} (hk : stored k = some v)
    (hwanted : w.argument k = none) {parsed : List (Parsed Opt)}
    (hparsed : getoptLongOnly longOptions (getArgv c.generateParameters) = .nonOption [] :: parsed) :
    ∃ k' optarg, .option (.key (.arg k')) (some optarg) ∈ parsed ∧ w.argument k' = none := by
  classical
  -- the options before the first one that is not wanted have plain arguments
  have hfind : ∃ o, c.options.find? (fun o => decide (∃ a, o.1 = .arg a ∧ w.argument a = none)) = some o := by
    rw [← Option.isSome_iff_exists, List.find?_isSome]
    exact ⟨(.arg k, v), (h.options _ v).mpr ⟨k, rfl, hk⟩, by simpa using hwanted⟩
  obtain ⟨⟨key, v'⟩, hfind⟩ := hfind
  rw [List.find?_eq_some_iff_append, decide_eq_true_eq] at hfind
  obtain ⟨⟨a, rfl, hnone⟩, pre, post, hsplit, hpre⟩ := hfind
  have hmem {o : Key × Text} (ho : o ∈ pre) : ∃ a', o.1 = .arg a' ∧ w.argument a' = some o.2 := by
    obtain ⟨a', ha', hstored'⟩ := (h.options o.1 o.2).mp (by simp [hsplit, ho])
    have hsome := hpre o ho
    rw [Bool.not_eq_true', decide_eq_false_iff_not, not_exists] at hsome
    cases hw : w.argument a' with
    | none => exact absurd ⟨ha', hw⟩ (hsome a')
    | some v'' =>
        refine ⟨a', ha', ?_⟩
        rw [hw, ← hstored', hstored a' v'' hw]
  obtain ⟨optarg, rest, hargv⟩ := getArgv_of_split hsplit fun k v hkv => by
    obtain ⟨a', -, hw⟩ := hmem hkv
    exact hplain a' v hw
  rw [hargv, getoptLongOnly_empty, getoptLongOnly_words_append (fun k hk => ?_) (fun o ho => ?_)] at hparsed
  · refine ⟨a, optarg, ?_, hnone⟩
    obtain ⟨o, ho, harg, hval⟩ := find_arg a
    rw [← (List.cons.inj hparsed).2, getoptLongOnly_key ho harg, hval]
    simp
  · obtain ⟨f, rfl, -⟩ := (h.flags k).mp hk
    exact ⟨f, rfl⟩
  · obtain ⟨a', ha', -⟩ := hmem ho
    exact ⟨a', ha'⟩

/-- The options that are wanted are returned, and nothing else. -/
theorem returned_iff (h : Holds c flag stored) (hheld : ∀ k v, w.argument k = some v → stored k = some v) :
    (∃ parsed, getoptLongOnly longOptions (getArgv c.generateParameters) = .nonOption [] :: parsed ∧
      parsed.Nodup ∧ ∀ p, p ∈ parsed ↔ w.Returns p) ↔
    (∀ k v, w.argument k = some v → ' ' ∉ v ∧ '\x00' ∉ v) ∧ stored = w.argument ∧ flag = w.flag := by
  have hoptions (hplain : ∀ k v, w.argument k = some v → ' ' ∉ v ∧ '\x00' ∉ v) (hstored : stored = w.argument) :
      getoptLongOnly longOptions (getArgv c.generateParameters) = .nonOption [] :: returned c := by
    rw [getArgv_generateParameters, getoptLongOnly_words h]
    intro k v hmem
    obtain ⟨a, rfl, ha⟩ := (h.options k v).mp hmem
    rw [hstored] at ha
    exact hplain a v ha
  constructor
  · rintro ⟨parsed, hparsed, -, hmem⟩
    have hplain (k : ArgKey) (v : Text) (hv : w.argument k = some v) : ' ' ∉ v ∧ '\x00' ∉ v := by
      have hreturned : .option (.key (.arg k)) (some v) ∈ parsed := (hmem _).mpr (.inr ⟨k, v, rfl, hv⟩)
      obtain ⟨arg, harg, hsuffix⟩ := suffix_of_mem_getoptLongOnly (getArgv c.generateParameters)
        (hparsed ▸ List.mem_cons_of_mem _ hreturned)
      exact plain_getArgv harg hsuffix
    have hstored : stored = w.argument := by
      funext k
      cases hwanted : w.argument k with
      | some v => exact hheld k v hwanted
      | none =>
          cases hk : stored k with
          | none => rfl
          | some v =>
              obtain ⟨k', optarg, hreturned, hnone⟩ := exists_returned_of_not_wanted h hplain hheld hk hwanted hparsed
              rw [hmem] at hreturned
              rcases hreturned with ⟨f, hf, -⟩ | ⟨a, v', ha, hv'⟩
              · cases hf
              · cases ha
                rw [hnone] at hv'
                cases hv'
    refine ⟨hplain, hstored, ?_⟩
    have heq : parsed = returned c := (List.cons.inj (hparsed.symm.trans (hoptions hplain hstored))).2
    funext k
    have hiff := hmem (.option (.flag k) none)
    rw [heq, mem_returned_iff h] at hiff
    rw [Bool.eq_iff_iff]
    simpa [Values.Returns, Opt.flag] using hiff
  · rintro ⟨hplain, hstored, hflag⟩
    refine ⟨returned c, hoptions hplain hstored, nodup_returned h, fun p => ?_⟩
    rw [mem_returned_iff h, hstored, hflag, Values.Returns]

/-- What `parse` makes of what is returned. -/
theorem parse_eq {files : Text → Text} {argv : List Text} {parsed : List (Parsed Opt)}
    (h : getoptLongOnly longOptions argv = .nonOption [] :: parsed) :
    UrlCopyOpts.parse files argv = (do
      let opts ← parsed.foldlM UrlCopyOpts.step {}
      let transfers ← opts.transfers files
      pure (opts, transfers)) := by
  rw [UrlCopyOpts.parse, h, List.foldlM_cons]
  rfl

theorem options_iff {files : Text → Text} {argv : List Text} {parsed : List (Parsed Opt)} (hexclusive : Exclusive w)
    (h : getoptLongOnly longOptions argv = .nonOption [] :: parsed) (hmem : ∀ p, p ∈ parsed ↔ w.Returns p) :
    (∃ opts transfers, UrlCopyOpts.parse files argv = .ok (opts, transfers) ∧ opts.decoded = w.options ∧
      (opts.bulkFile = [] → transfers = [opts.referenceTransfer])) ↔
    ((∀ k i, w.number k = some i → (k.lexicalCast (printInt i)).isSome) ∧ w.reported.options = w.options) ∧
      ∃ ts, (UrlCopyOpts.ofArgs w.argument w.flag).transfers files = .ok ts := by
  rw [parse_eq h, ← readable_iff hmem]
  rcases foldlM_step hexclusive hmem with ⟨hbad, hfold⟩ | ⟨hread, hfold⟩
  · rw [hfold]
    obtain ⟨p, hp, hnot⟩ := hbad
    constructor
    · rintro ⟨opts, transfers, heq, -⟩
      cases heq
    · rintro ⟨⟨hread, -⟩, -⟩
      exact absurd (hread p hp) hnot
  · rw [hfold]
    constructor
    · rintro ⟨opts, ts, heq, hdecoded, -⟩
      obtain ⟨opts', hopts', heq⟩ := exists_of_bind_eq_ok heq
      cases hopts'
      obtain ⟨ts', hts', heq⟩ := exists_of_bind_eq_ok heq
      cases heq
      rw [decoded_ofArgs] at hdecoded
      exact ⟨⟨hread, hdecoded⟩, ts, hts'⟩
    · rintro ⟨⟨-, hdecoded⟩, ts, hts⟩
      refine ⟨_, ts, ?_, (decoded_ofArgs w).trans hdecoded, transfers_eq hts⟩
      simp only [bind, Except.bind, hts]
      rfl

theorem exists_transfers_ofArgs {files : Text → Text} :
    (∃ ts, (UrlCopyOpts.ofArgs w.argument w.flag).transfers files = .ok ts) ↔
      if w.text .bulkFile = [] then w.text .source ≠ [] ∧ w.text .destination ≠ []
      else ∃ t ts, initListFromFile {} (files (w.text .bulkFile)) = .ok (t :: ts) := by
  have hbulk : (UrlCopyOpts.ofArgs w.argument w.flag).bulkFile = w.text .bulkFile := receivedText_argument .bulkFile
  have hsource : (UrlCopyOpts.ofArgs w.argument w.flag).referenceTransfer.source.fullUri = w.text .source :=
    (Uri.fullUri_parse _).trans (receivedText_argument .source)
  have hdestination : (UrlCopyOpts.ofArgs w.argument w.flag).referenceTransfer.destination.fullUri = w.text .destination :=
    (Uri.fullUri_parse _).trans (receivedText_argument .destination)
  rw [exists_transfers_iff, hbulk, hsource, hdestination]

/-- The process starts with what is wanted if and only if the command keeps nothing else and a command line can send it. -/
theorem command_line_round_trip (jsonCpp : JsonCpp) (realString : Text → Text) (files : Text → Text)
    (calls : List Call) :
    RoundTrip jsonCpp realString files calls ↔
      Settled jsonCpp realString calls ∧ Transmissible files (Values.wanted jsonCpp realString calls) := by
  have hholds := holds_ofCalls jsonCpp realString calls
  have hexclusive := exclusive_wanted jsonCpp realString calls
  have hheld : ∀ k v, (Values.wanted jsonCpp realString calls).argument k = some v →
      heldArg jsonCpp realString calls k = some v := fun _ _ => heldArg_of_argument jsonCpp realString
  constructor
  · rintro ⟨hreturned, hoptions⟩
    obtain ⟨hplain, hsettled⟩ := (returned_iff hholds hheld).mp hreturned
    obtain ⟨htext, hnull⟩ := plain_argument_iff.mp hplain
    obtain ⟨parsed, hparsed, -, hmem⟩ := hreturned
    obtain ⟨hagree, htransfers⟩ := (options_iff hexclusive hparsed hmem).mp hoptions
    obtain ⟨hchecksum, hmark, hnumber⟩ := reported_options_iff.mp hagree
    exact ⟨(held_eq_wanted_iff jsonCpp realString).mp hsettled, htext, hchecksum, fun k => ⟨hmark k, hnull k⟩, hnumber,
      exists_transfers_ofArgs.mp htransfers⟩
  · rintro ⟨hsettled, h⟩
    have hplain := plain_argument_iff.mpr ⟨h.text, fun k => (h.metadata k).2⟩
    have hreturned := (returned_iff hholds hheld).mpr ⟨hplain, (held_eq_wanted_iff jsonCpp realString).mpr hsettled⟩
    refine ⟨hreturned, ?_⟩
    obtain ⟨parsed, hparsed, -, hmem⟩ := hreturned
    have hagree := reported_options_iff.mpr ⟨h.checksum, fun k => (h.metadata k).1, h.number⟩
    exact (options_iff hexclusive hparsed hmem).mpr ⟨hagree, exists_transfers_ofArgs.mpr h.transfers⟩

end roundTrip

/-! ## What is lost on the way -/

/-- A transfer with an activity of two words. -/
def twoWords : TransferFile :=
  { sourceSurl := "https://a/f".toList, destSurl := "https://b/f".toList, activity := "Data Export".toList }

/-- A transfer with a question in its metadata. -/
def question : TransferFile :=
  { sourceSurl := "https://a/f".toList, destSurl := "https://b/f".toList, jobMetadata := "why?".toList }

/-- An argument is split, a question mark is lost, a getter adds an option, and a path stays that is not wanted any more. -/
theorem command_line_broken :
    ¬ RoundTrip JsonCpp.plainLibrary id (fun _ => []) [.setFromTransfer twoWords false false []] ∧
    ¬ RoundTrip JsonCpp.plainLibrary id (fun _ => []) [.setFromTransfer question false false []] ∧
    ¬ RoundTrip JsonCpp.plainLibrary id (fun _ => []) [.setFromTransfer {} false false [], .getTimeout] ∧
    ¬ RoundTrip JsonCpp.plainLibrary id (fun _ => []) [.setProxy "/tmp/x509up".toList, .setProxy []] := by
  have hreturned {calls : List Call} (h : RoundTrip JsonCpp.plainLibrary id (fun _ => []) calls) :=
    (returned_iff (holds_ofCalls ..) fun _ _ => heldArg_of_argument JsonCpp.plainLibrary id).mp h.returned
  have hsettled {calls : List Call} (h : RoundTrip JsonCpp.plainLibrary id (fun _ => []) calls) :
      Settled JsonCpp.plainLibrary id calls := (held_eq_wanted_iff ..).mp (hreturned h).2
  refine ⟨fun h => ?_, fun h => ?_, fun h => ?_, fun h => ?_⟩
  · have hblank := ((hreturned h).1 (.text .activity) "Data Export".toList rfl).1
    exact hblank (by decide)
  · obtain ⟨parsed, hparsed, -, hmem⟩ := h.returned
    have hagree := ((options_iff (exclusive_wanted _ _ _) hparsed hmem).mp h.options).1
    have hmark := (reported_options_iff.mp hagree).2.1 .jobMetadata
    exact hmark (by decide)
  · have htimeout := ((hsettled h).number .timeout rfl .getTimeout (by simp)).1
    exact htimeout rfl
  · have hproxy := (hsettled h).text .proxy rfl (.setProxy "/tmp/x509up".toList) (by simp) _ rfl
    cases hproxy

end Fts3.UrlCopy
