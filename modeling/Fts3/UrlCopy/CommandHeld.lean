import Fts3.UrlCopy.CommandLine

/-!
# What the command holds

A flag of the command is what the last assignment to it has said, and an option has the last value that was not empty.
-/

namespace Fts3.UrlCopy

open Fts3.Text Fts3.Getopt

/-! ## Flags and options -/

/-- The command has these flags and options, each of them once. -/
structure Holds (c : UrlCopyCmd) (flag : FlagKey → Bool) (stored : ArgKey → Option Text) : Prop where
  flags : ∀ k, k ∈ c.flags ↔ ∃ f, k = .flag f ∧ flag f = true
  flags_nodup : c.flags.Nodup
  options : ∀ k v, (k, v) ∈ c.options ↔ ∃ a, k = .arg a ∧ stored a = some v
  keys_nodup : (c.options.map (·.1)).Nodup

section holds

variable {c : UrlCopyCmd} {flag : FlagKey → Bool} {stored : ArgKey → Option Text}

theorem mem_assignOption {options : List (Key × Text)} {k k' : Key} {v v' : Text} :
    (k', v') ∈ UrlCopyCmd.assignOption options k v ↔ k' = k ∧ v' = v ∨ k' ≠ k ∧ (k', v') ∈ options := by
  simp [UrlCopyCmd.assignOption, List.mem_orderedInsert, and_comm]

theorem nodup_assignOption {options : List (Key × Text)} (k : Key) (v : Text) (h : (options.map (·.1)).Nodup) :
    ((UrlCopyCmd.assignOption options k v).map (·.1)).Nodup := by
  have hperm : ((UrlCopyCmd.assignOption options k v).map (·.1)).Perm (k :: (options.filter (·.1 ≠ k)).map (·.1)) :=
    (List.perm_orderedInsert _ (k, v) _).map _
  rw [hperm.nodup_iff, List.nodup_cons]
  constructor
  · simp
  · exact h.sublist (List.filter_sublist.map _)

theorem mem_flags_setFlag (h : c.flags.Nodup) {k : FlagKey} {set : Bool} {k' : Key} :
    k' ∈ (c.setFlag k set).flags ↔ k' = .flag k ∧ set = true ∨ k' ≠ .flag k ∧ k' ∈ c.flags := by
  simp only [UrlCopyCmd.setFlag]
  by_cases hk' : k' = .flag k
  · subst hk'
    by_cases hmem : .flag k ∈ c.flags
    · cases set <;> simp [hmem, h.mem_erase_iff]
    · cases set <;> simp [hmem]
  · by_cases hmem : .flag k ∈ c.flags
    · cases set <;> simp [hmem, hk', h.mem_erase_iff]
    · cases set <;> simp [hmem, hk']

theorem nodup_flags_setFlag (h : c.flags.Nodup) (k : FlagKey) (set : Bool) : (c.setFlag k set).flags.Nodup := by
  simp only [UrlCopyCmd.setFlag]
  split
  · rename_i hset
    rw [List.nodup_append]
    refine ⟨h, List.nodup_singleton _, fun k' hk' k'' hk'' heq => hset.2 ?_⟩
    rwa [List.mem_singleton.mp hk'', ← heq] at *
  · split
    · exact h.erase _
    · exact h

theorem Holds.setFlag (h : Holds c flag stored) (k : FlagKey) (set : Bool) :
    Holds (c.setFlag k set) (Function.update flag k set) stored where
  flags k' := by
    rw [mem_flags_setFlag h.flags_nodup, h.flags]
    constructor
    · rintro (⟨rfl, rfl⟩ | ⟨hne, f, rfl, hf⟩)
      · exact ⟨k, rfl, Function.update_self ..⟩
      · have hfk : f ≠ k := fun heq => hne (by rw [heq])
        exact ⟨f, rfl, by rw [Function.update_of_ne hfk, hf]⟩
    · rintro ⟨f, rfl, hf⟩
      by_cases hfk : f = k
      · rw [hfk, Function.update_self] at hf
        exact .inl ⟨by rw [hfk], hf⟩
      · rw [Function.update_of_ne hfk] at hf
        exact .inr ⟨fun heq => hfk (Key.flag.inj heq), f, rfl, hf⟩
  flags_nodup := nodup_flags_setFlag h.flags_nodup k set
  options k' v := by
    rw [← h.options k' v, UrlCopyCmd.setFlag, List.mem_filter, decide_eq_true_eq]
    constructor
    · exact fun hmem => hmem.1
    · intro hmem
      obtain ⟨a, rfl, -⟩ := (h.options k' v).mp hmem
      exact ⟨hmem, Key.noConfusion⟩
  keys_nodup := h.keys_nodup.sublist (List.filter_sublist.map _)

/-- The flags have no key of an option. -/
theorem Holds.not_mem_flags (h : Holds c flag stored) (k : ArgKey) : .arg k ∉ c.flags := by
  intro hmem
  obtain ⟨f, hf, -⟩ := (h.flags _).mp hmem
  cases hf

/-- The value of one option is set. -/
theorem Holds.assignOption (h : Holds c flag stored) (k : ArgKey) (v : Text) :
    Holds { c with options := UrlCopyCmd.assignOption c.options (.arg k) v } flag
      (Function.update stored k (some v)) where
  flags := h.flags
  flags_nodup := h.flags_nodup
  options k' v' := by
    rw [mem_assignOption, h.options]
    constructor
    · rintro (⟨rfl, rfl⟩ | ⟨hne, a, rfl, ha⟩)
      · exact ⟨k, rfl, Function.update_self ..⟩
      · have hak : a ≠ k := fun heq => hne (by rw [heq])
        exact ⟨a, rfl, by rw [Function.update_of_ne hak, ha]⟩
    · rintro ⟨a, rfl, ha⟩
      by_cases hak : a = k
      · rw [hak, Function.update_self, Option.some.injEq] at ha
        exact .inl ⟨by rw [hak], ha.symm⟩
      · rw [Function.update_of_ne hak] at ha
        exact .inr ⟨fun heq => hak (Key.arg.inj heq), a, rfl, ha⟩
  keys_nodup := nodup_assignOption _ _ h.keys_nodup

theorem Holds.setOption (h : Holds c flag stored) (k : ArgKey) (v : Text) :
    Holds (c.setOption k v) flag (if v = [] then stored else Function.update stored k (some v)) := by
  simp only [UrlCopyCmd.setOption, if_neg (h.not_mem_flags k)]
  by_cases hv : v = []
  · rw [if_neg (not_not.mpr hv), if_pos hv]
    exact h
  · rw [if_pos hv, if_neg hv]
    exact h.assignOption k v

theorem Holds.getOption (h : Holds c flag stored) (k : ArgKey) :
    Holds (c.getOption k) flag (if (stored k).isSome then stored else Function.update stored k (some [])) := by
  have hmem : .arg k ∈ c.options.map (·.1) ↔ (stored k).isSome := by
    rw [List.mem_map, Option.isSome_iff_exists]
    constructor
    · rintro ⟨⟨k', v⟩, hmem, rfl⟩
      obtain ⟨a, ha, hv⟩ := (h.options _ v).mp hmem
      exact ⟨v, Key.arg.inj ha ▸ hv⟩
    · rintro ⟨v, hv⟩
      exact ⟨(.arg k, v), (h.options _ v).mpr ⟨k, rfl, hv⟩, rfl⟩
  simp only [UrlCopyCmd.getOption, hmem]
  split
  · exact h
  · exact h.assignOption k []

theorem Holds.initial : Holds {} (fun _ => false) fun _ => none where
  flags := by simp
  flags_nodup := List.nodup_nil
  options := by simp
  keys_nodup := List.nodup_nil

end holds

/-! ## The assignments -/

/-- What an assignment says of the flag. -/
def Assignment.sets? (k : FlagKey) : Assignment → Option Bool
  | .flag k' set => if k' = k then some set else none
  | _ => none

/-- The value that an assignment gives to the option. -/
def Assignment.arg? (k : ArgKey) : Assignment → Option Text
  | .text k' value => if .text k' = k ∧ value ≠ [] then some value else none
  | .metadata k' value => if .metadata k' = k ∧ value ≠ [] then some (prepareMetadataString value) else none
  | .number k' value => if .number k' = k then some (printInt value) else none
  | _ => none

/-- The getter puts an empty value to the option. -/
def Assignment.leaves? (k : ArgKey) : Assignment → Option Text
  | .get k' => if .number k' = k then some [] else none
  | _ => none

section assignments

variable {c : UrlCopyCmd} {flag : FlagKey → Bool} {stored : ArgKey → Option Text}

/-- The value of one option is set, unless it is empty. -/
theorem Holds.set (h : Holds c flag stored) (k : ArgKey) (v : Text) :
    Holds (c.setOption k v) flag fun k' => (if k = k' ∧ v ≠ [] then some v else none).or (stored k') := by
  have hset : (fun k' => (if k = k' ∧ v ≠ [] then some v else none).or (stored k')) =
      if v = [] then stored else Function.update stored k (some v) := by
    by_cases hv : v = []
    · simp [hv]
    · funext k'
      rw [if_neg hv]
      by_cases hk : k' = k
      · simp [hk, hv]
      · simp [hk, Ne.symm hk]
  rw [hset]
  exact h.setOption k v

theorem Holds.assign (h : Holds c flag stored) (x : Assignment) :
    Holds (c.assign x) (fun k => (x.sets? k).getD (flag k))
      fun k => (x.arg? k).or ((stored k).or (x.leaves? k)) := by
  cases x with
  | text k v => simpa [UrlCopyCmd.assign, Assignment.sets?, Assignment.arg?, Assignment.leaves?] using h.set (.text k) v
  | metadata k v =>
      have hset := h.set (.metadata k) (prepareMetadataString v)
      simp only [ne_eq, prepareMetadataString_eq_nil] at hset
      simpa [UrlCopyCmd.assign, Assignment.sets?, Assignment.arg?, Assignment.leaves?] using hset
  | number k i =>
      have hset := h.set (.number k) (printInt i)
      simp only [ne_eq, printInt_ne_nil, not_false_eq_true, and_true] at hset
      simpa [UrlCopyCmd.assign, Assignment.sets?, Assignment.arg?, Assignment.leaves?] using hset
  | flag k set =>
      have hflag : (fun k' => (Assignment.sets? k' (.flag k set)).getD (flag k')) = Function.update flag k set := by
        funext k'
        by_cases hk : k' = k
        · simp [Assignment.sets?, hk]
        · simp [Assignment.sets?, hk, Ne.symm hk]
      rw [hflag]
      simpa [UrlCopyCmd.assign, Assignment.arg?, Assignment.leaves?] using h.setFlag k set
  | get k =>
      have hstored : (fun k' => (stored k').or (Assignment.leaves? k' (.get k))) =
          if (stored (.number k)).isSome then stored else Function.update stored (.number k) (some []) := by
        funext k'
        by_cases hk : k' = .number k
        · subst hk
          cases hvalue : stored (.number k) <;> simp [Assignment.leaves?, hvalue]
        · have hne : ¬ .number k = k' := Ne.symm hk
          split <;> simp [Assignment.leaves?, hk, hne]
      have hget := h.getOption (.number k)
      rw [← hstored] at hget
      simpa [UrlCopyCmd.assign, Assignment.sets?, Assignment.arg?] using hget

theorem holds_foldl (xs : List Assignment) (h : Holds c flag stored) :
    Holds (xs.foldl UrlCopyCmd.assign c) (fun k => (xs.filterMap (Assignment.sets? k)).getLast?.getD (flag k))
      fun k => (xs.filterMap (Assignment.arg? k)).getLast?.or
        ((stored k).or (xs.filterMap (Assignment.leaves? k)).head?) := by
  induction xs generalizing c flag stored with
  | nil => simpa using h
  | cons x xs ih =>
      have hrest := ih (h.assign x)
      have hflag (k : FlagKey) : (xs.filterMap (Assignment.sets? k)).getLast?.getD ((x.sets? k).getD (flag k)) =
          ((x :: xs).filterMap (Assignment.sets? k)).getLast?.getD (flag k) := by
        rw [List.filterMap_cons]
        cases x.sets? k with
        | none => rfl
        | some set => simp [List.getLast?_cons]
      have hstored (k : ArgKey) :
          (xs.filterMap (Assignment.arg? k)).getLast?.or
            (((x.arg? k).or ((stored k).or (x.leaves? k))).or (xs.filterMap (Assignment.leaves? k)).head?) =
          ((x :: xs).filterMap (Assignment.arg? k)).getLast?.or
            ((stored k).or ((x :: xs).filterMap (Assignment.leaves? k)).head?) := by
        have hleaves : ((x :: xs).filterMap (Assignment.leaves? k)).head? =
            (x.leaves? k).or (xs.filterMap (Assignment.leaves? k)).head? := by
          rw [List.filterMap_cons]
          cases x.leaves? k <;> rfl
        have hlast : ((x :: xs).filterMap (Assignment.arg? k)).getLast? =
            (xs.filterMap (Assignment.arg? k)).getLast?.or (x.arg? k) := by
          rw [List.filterMap_cons]
          cases x.arg? k with
          | none => simp
          | some v => cases hxs : (xs.filterMap (Assignment.arg? k)).getLast? <;> simp [List.getLast?_cons, hxs]
        rw [hleaves, hlast]
        simp only [Option.or_assoc]
      simpa only [List.foldl_cons, hflag, hstored] using hrest

end assignments

section calls

variable (jsonCpp : JsonCpp) (realString : Text → Text) (calls : List Call)

/-- The flags of the command after the calls. -/
def heldFlag (k : FlagKey) : Bool :=
  (calls.flatMap fun call => (call.assignments jsonCpp realString).filterMap (Assignment.sets? k)).getLast?.getD false

/-- The last value of an option, or what a getter has left. -/
def heldArg (k : ArgKey) : Option Text :=
  (calls.flatMap fun call => (call.assignments jsonCpp realString).filterMap (Assignment.arg? k)).getLast?.or
    (calls.flatMap fun call => (call.assignments jsonCpp realString).filterMap (Assignment.leaves? k)).head?

theorem holds_ofCalls :
    Holds (UrlCopyCmd.ofCalls jsonCpp realString calls) (heldFlag jsonCpp realString calls)
      (heldArg jsonCpp realString calls) := by
  have h := holds_foldl (calls.flatMap (Call.assignments jsonCpp realString)) Holds.initial
  simp only [List.filterMap_flatMap, Option.none_or] at h
  exact h

end calls

/-! ## The arguments -/

theorem Key.name_all (k : Key) : (k.name.toList.all fun c => c != ' ' && c != '\x00' && c != '=') = true := by
  cases k with
  | arg k =>
      cases k with
      | text k => cases k <;> rfl
      | metadata k => cases k <;> rfl
      | number k => cases k <;> rfl
  | flag k => cases k <;> rfl

theorem Key.name_plain (k : Key) : ∀ c ∈ k.name.toList, c ≠ ' ' ∧ c ≠ '\x00' ∧ c ≠ '=' := by
  intro c hc
  simpa [and_assoc] using List.all_eq_true.mp k.name_all c hc

/-- The options of the command are in the table of the process, `retry_max` as the start of another name. -/
theorem find_arg (k : ArgKey) :
    ∃ o, find longOptions (Key.arg k).name.toList = some o ∧ o.hasArg = true ∧ o.val = .key (.arg k) := by
  cases k with
  | text k => cases k <;> exact ⟨_, rfl, rfl, rfl⟩
  | metadata k => cases k <;> exact ⟨_, rfl, rfl, rfl⟩
  | number k => cases k <;> exact ⟨_, rfl, rfl, rfl⟩

theorem find_flag (k : FlagKey) :
    ∃ o, find longOptions (Key.flag k).name.toList = some o ∧ o.hasArg = false ∧ o.val = .key (.flag k) := by
  cases k <;> exact ⟨_, rfl, rfl, rfl⟩

section arguments

variable {c : UrlCopyCmd} {flag : FlagKey → Bool} {stored : ArgKey → Option Text}

/-- What the blanks of the command line stand between. -/
def words (c : UrlCopyCmd) : List Text :=
  c.flags.map (fun k => dashed k.name.toList) ++ c.options.flatMap fun o => [dashed o.1.name.toList, o.2]

/-- What `getopt_long_only` makes of them. -/
def returned (c : UrlCopyCmd) : List (Parsed Opt) :=
  c.flags.map (fun k => .option (.key k) none) ++ c.options.map fun o => .option (.key o.1) (some o.2)

theorem generateParameters_eq (c : UrlCopyCmd) : c.generateParameters = [' '].intercalate ([] :: words c) := by
  have hcons (word : Text) (l : List Text) : [' '].intercalate (word :: l) = word ++ l.flatMap (' ' :: ·) := by
    induction l generalizing word with
    | nil => simp
    | cons word' l ih => rw [List.intercalate_cons_cons, ih, List.flatMap_cons, List.append_assoc, List.singleton_append,
        List.cons_append]
  rw [hcons, words, List.flatMap_append, List.flatMap_map, List.flatMap_assoc, UrlCopyCmd.generateParameters,
    List.nil_append]
  congr 2
  funext o
  simp [dashed]

theorem plain_dashed (k : Key) : ' ' ∉ dashed k.name.toList ∧ '\x00' ∉ dashed k.name.toList := by
  have hplain := k.name_plain
  constructor
  · intro hmem
    simp only [dashed, List.mem_cons] at hmem
    rcases hmem with hmem | hmem | hmem
    · cases hmem
    · cases hmem
    · exact (hplain _ hmem).1 rfl
  · intro hmem
    simp only [dashed, List.mem_cons] at hmem
    rcases hmem with hmem | hmem | hmem
    · cases hmem
    · cases hmem
    · exact (hplain _ hmem).2.1 rfl

theorem plain_words (h : ∀ k v, (k, v) ∈ c.options → ' ' ∉ v ∧ '\x00' ∉ v) {word : Text} (hword : word ∈ words c) :
    ' ' ∉ word ∧ '\x00' ∉ word := by
  rw [words, List.mem_append, List.mem_map, List.mem_flatMap] at hword
  rcases hword with ⟨k, -, rfl⟩ | ⟨⟨k, v⟩, hmem, hword⟩
  · exact plain_dashed k
  · rw [List.mem_cons, List.mem_singleton] at hword
    rcases hword with rfl | rfl
    · exact plain_dashed k
    · exact h k _ hmem

theorem takeWhile_plain {word : Text} (h : '\x00' ∉ word) : word.takeWhile (· != '\x00') = word := by
  rw [List.takeWhile_eq_self_iff]
  intro x hx
  rw [bne_iff_ne]
  rintro rfl
  exact h hx

theorem getArgv_generateParameters (h : ∀ k v, (k, v) ∈ c.options → ' ' ∉ v ∧ '\x00' ∉ v) :
    getArgv c.generateParameters = [] :: words c := by
  have hplain : ∀ word ∈ [] :: words c, ' ' ∉ word ∧ '\x00' ∉ word := by
    intro word hword
    rw [List.mem_cons] at hword
    cases hword with
    | inl hword => simp [hword]
    | inr hword => exact plain_words h hword
  rw [generateParameters_eq, getArgv, List.splitOn_intercalate _ (fun word hword => (hplain word hword).1) (by simp)]
  rw [List.map_congr_left fun word hword => takeWhile_plain (hplain word hword).2, List.map_id']

theorem find_name_ne_nil {k : Key} {o : LongOption Opt} (hfind : find longOptions k.name.toList = some o) :
    k.name.toList ≠ [] := by
  have hempty : find longOptions [] = none := rfl
  intro hnil
  rw [hnil, hempty] at hfind
  cases hfind

theorem Key.name_no_equals (k : Key) : '=' ∉ k.name.toList :=
  fun hmem => (k.name_plain _ hmem).2.2 rfl

/-- Whatever comes after the name of an option is its argument. -/
theorem getoptLongOnly_key {k : Key} {o : LongOption Opt} (hfind : find longOptions k.name.toList = some o)
    (harg : o.hasArg = true) (optarg : Text) (rest : List Text) :
    getoptLongOnly longOptions (dashed k.name.toList :: optarg :: rest) =
      .option o.val (some optarg) :: getoptLongOnly longOptions rest :=
  getoptLongOnly_option hfind (find_name_ne_nil hfind) k.name_no_equals harg optarg rest

theorem getoptLongOnly_words_append (hflags : ∀ k ∈ c.flags, ∃ f, k = .flag f)
    (hoptions : ∀ o ∈ c.options, ∃ a, o.1 = .arg a) (rest : List Text) :
    getoptLongOnly longOptions (words c ++ rest) = returned c ++ getoptLongOnly longOptions rest := by
  have hargs (options : List (Key × Text)) (ho : ∀ o ∈ options, ∃ a, o.1 = .arg a) :
      getoptLongOnly longOptions ((options.flatMap fun o => [dashed o.1.name.toList, o.2]) ++ rest) =
        (options.map fun o => .option (.key o.1) (some o.2)) ++ getoptLongOnly longOptions rest := by
    induction options with
    | nil => simp
    | cons o options ih =>
        obtain ⟨k, v⟩ := o
        obtain ⟨a, rfl⟩ := ho _ List.mem_cons_self
        obtain ⟨o, hfind, harg, hval⟩ := find_arg a
        rw [List.flatMap_cons, List.append_assoc, List.cons_append, List.cons_append, List.nil_append,
          getoptLongOnly_key hfind harg, hval, List.map_cons, ih fun o ho' => ho o (List.mem_cons_of_mem _ ho'),
          List.cons_append]
  have hbefore (flags : List Key) (hf : ∀ k ∈ flags, ∃ f, k = .flag f) (rest : List Text) :
      getoptLongOnly longOptions (flags.map (fun k => dashed k.name.toList) ++ rest) =
        flags.map (fun k => .option (.key k) none) ++ getoptLongOnly longOptions rest := by
    induction flags with
    | nil => simp
    | cons k flags ih =>
        obtain ⟨f, rfl⟩ := hf _ List.mem_cons_self
        obtain ⟨o, hfind, harg, hval⟩ := find_flag f
        rw [List.map_cons, List.cons_append,
          getoptLongOnly_flag hfind (find_name_ne_nil hfind) (Key.name_no_equals _) harg, hval, List.map_cons,
          List.cons_append, ih fun k hk => hf k (List.mem_cons_of_mem _ hk)]
  rw [words, returned, List.append_assoc, hbefore _ hflags, hargs _ hoptions, List.append_assoc]

theorem getoptLongOnly_words (h : Holds c flag stored) :
    getoptLongOnly longOptions ([] :: words c) = .nonOption [] :: returned c := by
  have happend := getoptLongOnly_words_append (c := c) (fun k hk => ?_) (fun o ho => ?_) []
  · rw [List.append_nil, getoptLongOnly_nil, List.append_nil] at happend
    rw [getoptLongOnly_empty, happend]
  · obtain ⟨f, rfl, -⟩ := (h.flags k).mp hk
    exact ⟨f, rfl⟩
  · obtain ⟨a, ha, -⟩ := (h.options o.1 o.2).mp ho
    exact ⟨a, ha⟩

theorem getArgv_append (a b : Text) : getArgv (a ++ ' ' :: b) = getArgv a ++ getArgv b := by
  simp only [getArgv, List.splitOn_append_cons_self, List.map_append]

theorem getArgv_dashed (k : Key) : getArgv (dashed k.name.toList) = [dashed k.name.toList] := by
  rw [getArgv, List.splitOn_eq_singleton (plain_dashed k).1, List.map_singleton, takeWhile_plain (plain_dashed k).2]

theorem getArgv_ne_nil (arguments : Text) : getArgv arguments ≠ [] := by
  rw [getArgv, ne_eq, List.map_eq_nil_iff]
  exact List.splitOn_ne_nil ' ' arguments

/-- An option is found behind options with plain arguments, whatever its value does to the rest. -/
theorem getArgv_of_split {key : Key} {v : Text} {pre post : List (Key × Text)}
    (hsplit : c.options = pre ++ (key, v) :: post) (hpre : ∀ k v, (k, v) ∈ pre → ' ' ∉ v ∧ '\x00' ∉ v) :
    ∃ optarg rest, getArgv c.generateParameters =
      [] :: (words { flags := c.flags, options := pre } ++ dashed key.name.toList :: optarg :: rest) := by
  let after : Text := v ++ post.flatMap fun o => " --".toList ++ o.1.name.toList ++ " ".toList ++ o.2
  have hsame : c.generateParameters =
      UrlCopyCmd.generateParameters { flags := c.flags, options := pre } ++
        ' ' :: (dashed key.name.toList ++ ' ' :: after) := by
    simp [UrlCopyCmd.generateParameters, hsplit, dashed, after]
  obtain ⟨optarg, rest, hafter⟩ := List.exists_cons_of_ne_nil (getArgv_ne_nil after)
  refine ⟨optarg, rest, ?_⟩
  rw [hsame, getArgv_append, getArgv_append, getArgv_dashed, hafter, getArgv_generateParameters hpre]
  rfl

end arguments

end Fts3.UrlCopy
