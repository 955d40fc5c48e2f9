import Fts3.UrlCopy.CommandHeld

/-!
# What each setter says

An assignment to an option is made by the calls that have its field, and by no others.
-/

namespace Fts3.UrlCopy

open Fts3.Text

/-! ## Last words -/

section lastWords

variable {α β : Type} {l : List α} {g : α → Option β}

/-- A last word that counts is the last one that counts. -/
theorem getLast?_filterMap_of_bind {b : β} (h : l.getLast?.bind g = some b) : (l.filterMap g).getLast? = some b := by
  cases hlast : l.getLast? with
  | none => simp [hlast] at h
  | some a =>
      rw [hlast, Option.bind_some] at h
      obtain ⟨init, rfl⟩ := List.getLast?_eq_some_iff.mp hlast
      simp [List.filterMap_append, h]

/-- Of values that stay once they are set, the last one is right if it is set or none has been. -/
theorem getLast?_filterMap_set {l : List Bool} :
    (l.filterMap fun set => if set then some set else none).getLast?.getD false = l.getLast?.getD false ↔
      (l.getLast?.getD false = false → ∀ set ∈ l, set ≠ true) := by
  have hnone : (∀ set ∈ l, (if set then some set else none) = none) ↔ ∀ set ∈ l, set ≠ true := by simp
  cases hlast : l.getLast? with
  | none => simp [List.getLast?_eq_none_iff.mp hlast]
  | some set =>
      cases set with
      | true =>
          have hbind : l.getLast?.bind (fun set => if set then some set else none) = some true := by
            rw [hlast]
            rfl
          simp [getLast?_filterMap_of_bind hbind]
      | false =>
          rw [← hnone, ← List.filterMap_eq_nil_iff, ← List.getLast?_eq_none_iff]
          cases hkept : (l.filterMap fun set => if set then some set else none).getLast? with
          | none => simp
          | some set =>
              obtain ⟨set', -, hset'⟩ := List.mem_filterMap.mp (List.mem_of_getLast? hkept)
              have htrue : set = true := by
                cases set' with
                | false => cases hset'
                | true => exact (Option.some.inj hset').symm
              simp [htrue]

theorem filterMap_cons_toList (a : α) (l : List α) : (a :: l).filterMap g = (g a).toList ++ l.filterMap g := by
  rw [List.filterMap_cons]
  cases g a <;> rfl

theorem filterMap_ite (P : Prop) [Decidable P] (l l' : List α) :
    (if P then l else l').filterMap g = if P then l.filterMap g else l'.filterMap g :=
  apply_ite _ _ _ _

end lastWords

section calls

variable (jsonCpp : JsonCpp) (realString : Text → Text)

/-- The argument that a call wants for an option. -/
def ArgKey.wantedBy : ArgKey → Call → Option (Option Text)
  | text k, call => (k.wantedBy jsonCpp realString call).map fun v => if v = [] then none else some v
  | metadata k, call => (k.wantedBy call).map fun v => if v = [] then none else some (prepareMetadataString v)
  | number k, call => (k.wantedBy call).map (Option.map printInt)

theorem lastWord_map {α β : Type} (word : Call → Option α) (g : α → β) (calls : List Call) :
    lastWord (fun call => (word call).map g) calls = (lastWord word calls).map g := by
  rw [lastWord, ← List.map_filterMap, List.getLast?_map, lastWord]

theorem join_lastWord_map {α β : Type} (word : Call → Option α) (g : α → Option β) (calls : List Call) :
    (lastWord (fun call => (word call).map g) calls).join = (lastWord word calls).bind g := by
  rw [lastWord_map, ← Option.bind_id_eq_join, Option.bind_map, Function.id_comp]

theorem argument_wanted (calls : List Call) (k : ArgKey) :
    (Values.wanted jsonCpp realString calls).argument k = (lastWord (k.wantedBy jsonCpp realString) calls).join := by
  cases k with
  | text k =>
      have hwanted : (Values.wanted jsonCpp realString calls).text k =
          (lastWord (k.wantedBy jsonCpp realString) calls).getD [] := rfl
      refine Eq.trans ?_ (join_lastWord_map (k.wantedBy jsonCpp realString) _ calls).symm
      rw [Values.argument, hwanted]
      cases lastWord (k.wantedBy jsonCpp realString) calls <;> rfl
  | metadata k =>
      have hwanted : (Values.wanted jsonCpp realString calls).metadata k = (lastWord k.wantedBy calls).getD [] := rfl
      refine Eq.trans ?_ (join_lastWord_map k.wantedBy _ calls).symm
      rw [Values.argument, hwanted]
      cases lastWord k.wantedBy calls <;> rfl
  | number k =>
      have hwanted : (Values.wanted jsonCpp realString calls).number k = (lastWord k.wantedBy calls).join := rfl
      refine Eq.trans ?_ (join_lastWord_map k.wantedBy _ calls).symm
      rw [Values.argument, hwanted]
      cases lastWord k.wantedBy calls <;> rfl

/-! ## The transfer -/

theorem filterMap_issuers (k : ArgKey) (transfer : TransferFile) :
    (issuers jsonCpp realString transfer.fileMetadata).filterMap (Assignment.arg? k) =
      (Assignment.arg? k (.text .sourceIssuer ((issuer jsonCpp realString .sourceIssuer transfer).getD []))).toList ++
        (Assignment.arg? k (.text .destIssuer
          (((issuer jsonCpp realString .sourceIssuer transfer).bind fun _ =>
            issuer jsonCpp realString .destIssuer transfer).getD []))).toList := by
  have hempty (k' : TextKey) : Assignment.arg? k (.text k' []) = none := by simp [Assignment.arg?]
  have hone (k' : TextKey) (v : Text) :
      (if v = [] then [] else [Assignment.text k' v]).filterMap (Assignment.arg? k) =
        (Assignment.arg? k (.text k' v)).toList := by
    by_cases hv : v = []
    · simp [hv, hempty]
    · rw [if_neg hv, List.filterMap_cons]
      cases Assignment.arg? k (.text k' v) <;> rfl
  unfold issuers issuer
  by_cases hnil : transfer.fileMetadata = []
  · simp only [hnil, if_true]
    cases hread : jsonCpp.read [] with
    | mk json ok => cases ok <;> simp [hempty]
  · rw [if_neg hnil]
    cases hread : jsonCpp.read transfer.fileMetadata with
    | mk json ok =>
        cases ok with
        | false => simp [hempty]
        | true =>
            simp only [if_neg hnil, issuerAssignments]
            cases (jsonGet json TextKey.sourceIssuer.name.toList []).bind (asString realString) with
            | none => simp [hempty]
            | some sourceIssuer =>
                cases (jsonGet json TextKey.destIssuer.name.toList []).bind (asString realString) with
                | none => simp [hempty, hone]
                | some destIssuer => simp [List.filterMap_append, hone]

/-- The assignments of a transfer, each at its option. -/
theorem filterMap_setFromTransfer (k : ArgKey) (t : TransferFile) (isMultiple publishUserDn : Bool) (msgDir : Text) :
    (setFromTransfer jsonCpp realString t isMultiple publishUserDn msgDir).filterMap (Assignment.arg? k) =
      List.flatten
        [ (Assignment.arg? k (.metadata .jobMetadata t.jobMetadata)).toList,
          (Assignment.arg? k (.text .vo t.voName)).toList,
          (Assignment.arg? k (.text .jobId t.jobId)).toList,
          (Assignment.arg? k (.text .checksumMode t.checksumMode)).toList,
          (Assignment.arg? k (.text .destTokenDesc t.destinationSpaceToken)).toList,
          (Assignment.arg? k (.text .sourceTokenDesc t.sourceSpaceToken)).toList,
          (issuers jsonCpp realString t.fileMetadata).filterMap (Assignment.arg? k),
          if publishUserDn then (Assignment.arg? k (.metadata .userDn t.userDn)).toList else [],
          if isMultiple then (Assignment.arg? k (.text .bulkFile (msgDir ++ "/".toList ++ t.jobId))).toList
          else
            List.flatten
              [ (Assignment.arg? k (.number .fileId t.fileId.toNat)).toList,
                (Assignment.arg? k (.text .source t.sourceSurl)).toList,
                (Assignment.arg? k (.text .destination t.destSurl)).toList,
                (Assignment.arg? k (.text .checksum t.checksum)).toList,
                if 0 < t.userFilesize then (Assignment.arg? k (.number .userFilesize t.userFilesize.toInt)).toList else [],
                if 0 < t.scitag then (Assignment.arg? k (.number .scitag t.scitag.toInt)).toList else [],
                (Assignment.arg? k (.text .tokenBringonline t.bringOnlineToken)).toList,
                (Assignment.arg? k (.metadata .fileMetadata t.fileMetadata)).toList,
                (Assignment.arg? k (.metadata .transferMetadata t.transferMetadata)).toList,
                (Assignment.arg? k (.text .activity t.activity)).toList ] ] := by
  have hflag (k' : FlagKey) (set : Bool) : (Assignment.flag k' set).arg? k = none := rfl
  have htext (k' : TextKey) (v : Text) :
      (if v ≠ [] then ((Assignment.text k' v).arg? k).toList else []) = ((Assignment.text k' v).arg? k).toList := by
    by_cases hv : v = [] <;> simp [Assignment.arg?, hv]
  cases htype : t.jobType <;>
    simp only [setFromTransfer, htype, List.flatten_cons, List.flatten_nil, List.filterMap_append, filterMap_cons_toList,
      filterMap_ite, htext, hflag, List.filterMap_nil, List.append_nil, List.nil_append, List.append_assoc,
      Option.toList_none, ite_self]

theorem arg_setFromTransfer (k : ArgKey) (t : TransferFile) (isMultiple publishUserDn : Bool) (msgDir : Text) :
    (setFromTransfer jsonCpp realString t isMultiple publishUserDn msgDir).filterMap (Assignment.arg? k) =
      (k.wantedBy jsonCpp realString (.setFromTransfer t isMultiple publishUserDn msgDir)).join.toList := by
  rw [filterMap_setFromTransfer, filterMap_issuers]
  cases k with
  | text k =>
      cases isMultiple <;> cases k <;>
        simp [ArgKey.wantedBy, TextKey.wantedBy, ofTransfer, ofSingle, Assignment.arg?]
  | metadata k =>
      cases isMultiple <;> cases publishUserDn <;> cases k <;>
        simp [ArgKey.wantedBy, MetadataKey.wantedBy, ofTransfer, ofSingle, Assignment.arg?]
  | number k =>
      have hsize : 0 < t.userFilesize ↔ 0 < t.userFilesize.toInt := Int64.lt_iff_toInt_lt
      have hscitag : 0 < t.scitag ↔ 0 < t.scitag.toInt := Int32.lt_iff_toInt_lt
      cases isMultiple <;> cases k <;>
        simp [ArgKey.wantedBy, NumberKey.wantedBy, ofSingle, ofProtocol, positive, Assignment.arg?, hsize, hscitag,
          apply_ite Option.toList]

/-! ## The other setters -/

theorem arg_setIPv6 (k : ArgKey) (set : Option Bool) : (setIPv6 set).filterMap (Assignment.arg? k) = [] := by
  cases set <;> rfl

theorem arg_setFromProtocol (k : ArgKey) (protocol : ProtocolParameters) :
    (setFromProtocol protocol).filterMap (Assignment.arg? k) =
      (k.wantedBy jsonCpp realString (.setFromProtocol protocol)).join.toList := by
  have hpositive (k' : NumberKey) (i : Int32) :
      (if 0 < i then [Assignment.number k' i.toInt] else []).filterMap (Assignment.arg? k) =
        ((positive i.toInt).bind fun i => Assignment.arg? k (.number k' i)).toList := by
    have hlt : 0 < i ↔ 0 < i.toInt := Int32.lt_iff_toInt_lt
    by_cases hi : 0 < i.toInt
    · rw [if_pos (hlt.mpr hi), positive, if_pos hi, Option.bind_some, List.filterMap_cons]
      cases Assignment.arg? k (.number k' i.toInt) <;> rfl
    · rw [if_neg (mt hlt.mp hi), positive, if_neg hi]
      rfl
  have hipv6 : (if protocol.ipv6.isSome then setIPv6 protocol.ipv6 else []).filterMap (Assignment.arg? k) = [] := by
    split
    · exact arg_setIPv6 k _
    · rfl
  have hudt : (if protocol.udt.isSome then setUDT protocol.udt else []).filterMap (Assignment.arg? k) = [] := by
    split <;> rfl
  have hstrict : [Assignment.flag .strictCopy protocol.strictCopy].filterMap (Assignment.arg? k) = [] := rfl
  simp only [setFromProtocol, List.flatten_cons, List.flatten_nil, List.filterMap_append, hpositive, hipv6, hudt, hstrict,
    List.append_nil]
  cases k with
  | text k => cases k <;> simp [ArgKey.wantedBy, TextKey.wantedBy, ofTransfer, ofSingle, Assignment.arg?]
  | metadata k => cases k <;> simp [ArgKey.wantedBy, MetadataKey.wantedBy, ofTransfer, ofSingle, Assignment.arg?]
  | number k =>
      cases k <;>
        simp [ArgKey.wantedBy, NumberKey.wantedBy, ofSingle, ofProtocol, Assignment.arg?, Option.map_eq_bind]

theorem arg_assignments (k : ArgKey) (call : Call) :
    (call.assignments jsonCpp realString).filterMap (Assignment.arg? k) =
      (k.wantedBy jsonCpp realString call).join.toList := by
  cases call with
  | setFromTransfer t isMultiple publishUserDn msgDir => exact arg_setFromTransfer ..
  | setFromProtocol protocol => exact arg_setFromProtocol ..
  | setCopyMode mode =>
      cases mode <;> rcases k with k | k | k <;> cases k <;> rfl
  | setIPv6 set =>
      rw [Call.assignments, arg_setIPv6]
      rcases k with k | k | k <;> cases k <;> rfl
  | _ =>
      simp only [Call.assignments, filterMap_cons_toList]
      rcases k with k | k | k <;> cases k <;> first
        | rfl
        | simp [ArgKey.wantedBy, TextKey.wantedBy, Assignment.arg?]

/-! ## Flags -/

/-- What a call says of the flag to the command. -/
def FlagKey.givenBy (k : FlagKey) (call : Call) : Option Bool :=
  match k with
  -- taken back by another transfer that is archived only
  | dstFileReport => (archiving.wantedBy call).bind fun archiving => if archiving then k.wantedBy call else none
  | _ => (k.wantedBy call).bind fun set => if set || !k.stays then some set else none

/-- The issuers are texts. -/
theorem filterMap_issuers_eq_nil {α : Type} {f : Assignment → Option α} (h : ∀ k v, f (.text k v) = none)
    (fileMetadata : Text) : (issuers jsonCpp realString fileMetadata).filterMap f = [] := by
  have hall (json : Json) (types : List TextKey) : (issuerAssignments realString json types).filterMap f = [] := by
    induction types with
    | nil => rfl
    | cons t types ih =>
        unfold issuerAssignments
        split
        · rfl
        · rw [List.filterMap_append, ih, List.append_nil]
          split
          · simp [h]
          · rfl
  unfold issuers
  split
  · rfl
  · split
    · exact hall _ _
    · rfl

/-- The flags of a transfer. -/
theorem sets_setFromTransfer (k : FlagKey) (t : TransferFile) (isMultiple publishUserDn : Bool) (msgDir : Text) :
    (setFromTransfer jsonCpp realString t isMultiple publishUserDn msgDir).filterMap (Assignment.sets? k) =
      (k.givenBy (.setFromTransfer t isMultiple publishUserDn msgDir)).toList := by
  have htext (k' : TextKey) (v : Text) : Assignment.sets? k (.text k' v) = none := rfl
  have hissuers := filterMap_issuers_eq_nil jsonCpp realString htext t.fileMetadata
  have hmetadata (k' : MetadataKey) (v : Text) : Assignment.sets? k (.metadata k' v) = none := rfl
  have hnumber (k' : NumberKey) (i : Int) : Assignment.sets? k (.number k' i) = none := rfl
  by_cases harchiving : 0 < t.archiveTimeout <;> cases htype : t.jobType <;>
    simp only [setFromTransfer, htype, List.flatten_cons, List.flatten_nil, List.filterMap_append, filterMap_cons_toList,
      filterMap_ite, htext, hmetadata, hnumber, hissuers, List.filterMap_nil, List.append_nil, List.nil_append,
      List.append_assoc, Option.toList_none, ite_self, harchiving, if_true, if_false] <;>
    cases k <;>
    simp [FlagKey.givenBy, FlagKey.wantedBy, FlagKey.stays, Call.ipv6?, ofTransfer, ofProtocol, Assignment.sets?, htype,
      harchiving]

theorem sets_setFromProtocol (k : FlagKey) (protocol : ProtocolParameters) :
    (setFromProtocol protocol).filterMap (Assignment.sets? k) = (k.givenBy (.setFromProtocol protocol)).toList := by
  have hnumber (P : Prop) [Decidable P] (k' : NumberKey) (i : Int) :
      (if P then [Assignment.number k' i] else []).filterMap (Assignment.sets? k) = [] := by
    split <;> rfl
  simp only [setFromProtocol, List.flatten_cons, List.flatten_nil, List.filterMap_append, hnumber, List.nil_append]
  rcases protocol with ⟨_, _, _, strictCopy, ipv6, udt, _⟩
  cases strictCopy <;> rcases ipv6 with _ | _ | _ <;> rcases udt with _ | _ | _ <;> cases k <;> rfl

theorem sets_assignments (k : FlagKey) (call : Call) :
    (call.assignments jsonCpp realString).filterMap (Assignment.sets? k) = (k.givenBy call).toList := by
  cases call with
  | setFromTransfer t isMultiple publishUserDn msgDir => exact sets_setFromTransfer ..
  | setFromProtocol protocol => exact sets_setFromProtocol ..
  | setCopyMode mode => cases mode <;> cases k <;> rfl
  | setIPv6 set => rcases set with _ | _ | _ <;> cases k <;> rfl
  | setUDT set => rcases set with _ | _ | _ <;> cases k <;> rfl
  | setSkipEvict set => rcases set with _ | _ | _ <;> cases k <;> rfl
  | setMonitoring set msgDir => cases set <;> cases k <;> rfl
  | setRetrieveSEToken set => cases set <;> cases k <;> rfl
  | setDisableDelegation set => cases set <;> cases k <;> rfl
  | setDisableStreaming set => cases set <;> cases k <;> rfl
  | setOverwrite set => cases set <;> cases k <;> rfl
  | _ => cases k <;> rfl

/-! ## Getters -/

theorem leaves_assignments (k : ArgKey) (call : Call) :
    (call.assignments jsonCpp realString).filterMap (Assignment.leaves? k) =
      (call.gets.bind fun k' => if .number k' = k then some [] else none).toList := by
  have htext (k' : TextKey) (v : Text) : Assignment.leaves? k (.text k' v) = none := rfl
  have hmetadata (k' : MetadataKey) (v : Text) : Assignment.leaves? k (.metadata k' v) = none := rfl
  have hnumber (k' : NumberKey) (i : Int) : Assignment.leaves? k (.number k' i) = none := rfl
  have hflag (k' : FlagKey) (set : Bool) : Assignment.leaves? k (.flag k' set) = none := rfl
  cases call with
  | setFromTransfer t isMultiple publishUserDn msgDir =>
      have hissuers := filterMap_issuers_eq_nil jsonCpp realString htext t.fileMetadata
      cases htype : t.jobType <;>
        simp [Call.assignments, setFromTransfer, htype, List.filterMap_append, filterMap_ite, htext, hmetadata, hnumber,
          hflag, hissuers, Call.gets]
  | setFromProtocol protocol =>
      have hipv6 (set : Option Bool) : (setIPv6 set).filterMap (Assignment.leaves? k) = [] := by cases set <;> rfl
      have hudt (set : Option Bool) : (setUDT set).filterMap (Assignment.leaves? k) = [] := rfl
      simp [Call.assignments, setFromProtocol, List.filterMap_append, filterMap_ite, hnumber, hflag, hipv6, hudt, Call.gets]
  | setCopyMode mode => cases mode <;> rfl
  | setIPv6 set => cases set <;> rfl
  | getBuffersize | getNoStreams | getTimeout =>
      simp only [Call.assignments, filterMap_cons_toList, List.filterMap_nil, List.append_nil, Assignment.leaves?, Call.gets,
        Option.bind_some]
  | _ => rfl

/-! ## The command holds what is wanted -/

section settled

variable {calls : List Call}

/-- All that the calls say of an option. -/
def said {α : Type} (word : Call → Option α) (calls : List Call) : List α :=
  calls.filterMap word

theorem forall_said {α : Type} {word : Call → Option α} {P : α → Prop} :
    (∀ a ∈ said word calls, P a) ↔ ∀ call ∈ calls, ∀ a, word call = some a → P a := by
  simp only [said, List.mem_filterMap]
  constructor
  · exact fun h call hcall a ha => h a ⟨call, hcall, ha⟩
  · rintro h a ⟨call, hcall, ha⟩
    exact h call hcall a ha

theorem flatMap_eq_filterMap_said {α β : Type} (word : Call → Option α) (g : α → Option β) (calls : List Call) :
    (calls.flatMap fun call => ((word call).bind g).toList) = (said word calls).filterMap g := by
  rw [said, List.filterMap_filterMap, List.filterMap_eq_flatMap_toList]

theorem heldArg_eq (k : ArgKey) :
    heldArg jsonCpp realString calls k =
      ((said (k.wantedBy jsonCpp realString) calls).filterMap id).getLast?.or
        ((said Call.gets calls).filterMap fun k' => if .number k' = k then some [] else none).head? := by
  have harg (call : Call) : (call.assignments jsonCpp realString).filterMap (Assignment.arg? k) =
      ((k.wantedBy jsonCpp realString call).bind id).toList := by
    rw [arg_assignments, ← Option.bind_id_eq_join]
  simp only [heldArg, harg, leaves_assignments, flatMap_eq_filterMap_said]

theorem argument_eq (k : ArgKey) :
    (Values.wanted jsonCpp realString calls).argument k =
      (said (k.wantedBy jsonCpp realString) calls).getLast?.bind id := by
  rw [argument_wanted, lastWord, ← Option.bind_id_eq_join]
  rfl

/-- An option that is wanted has its value in the command. -/
theorem heldArg_of_argument {k : ArgKey} {v : Text} (h : (Values.wanted jsonCpp realString calls).argument k = some v) :
    heldArg jsonCpp realString calls k = some v := by
  rw [argument_eq] at h
  rw [heldArg_eq, getLast?_filterMap_of_bind h, Option.some_or]

theorem heldArg_eq_argument_iff (k : ArgKey) :
    heldArg jsonCpp realString calls k = (Values.wanted jsonCpp realString calls).argument k ↔
      ((Values.wanted jsonCpp realString calls).argument k = none →
        (∀ a ∈ said (k.wantedBy jsonCpp realString) calls, a = none) ∧
          ∀ k' ∈ said Call.gets calls, .number k' ≠ k) := by
  cases hargument : (Values.wanted jsonCpp realString calls).argument k with
  | some v => simpa using heldArg_of_argument jsonCpp realString hargument
  | none =>
      have hlast : (said (k.wantedBy jsonCpp realString) calls).getLast?.bind id = none := by
        rw [← argument_eq, hargument]
      simp only [forall_const, heldArg_eq, Option.or_eq_none_iff, List.getLast?_eq_none_iff, List.head?_eq_none_iff,
        List.filterMap_eq_nil_iff, id, ite_eq_right_iff, reduceCtorEq, imp_false, ne_eq]

/-- The options have their values, and no others. -/
theorem heldArg_eq_argument :
    heldArg jsonCpp realString calls = (Values.wanted jsonCpp realString calls).argument ↔
      (∀ k, (Values.wanted jsonCpp realString calls).text k = [] →
        ∀ call ∈ calls, ∀ v, k.wantedBy jsonCpp realString call = some v → v = []) ∧
      (∀ k, (Values.wanted jsonCpp realString calls).metadata k = [] →
        ∀ call ∈ calls, ∀ v, k.wantedBy call = some v → v = []) ∧
      ∀ k, (Values.wanted jsonCpp realString calls).number k = none →
        ∀ call ∈ calls, call.gets ≠ some k ∧ ∀ v, k.wantedBy call = some v → v = none := by
  have htext (k : TextKey) :
      heldArg jsonCpp realString calls (.text k) = (Values.wanted jsonCpp realString calls).argument (.text k) ↔
        ((Values.wanted jsonCpp realString calls).text k = [] →
          ∀ call ∈ calls, ∀ v, k.wantedBy jsonCpp realString call = some v → v = []) := by
    rw [heldArg_eq_argument_iff]
    simp [Values.argument, ArgKey.wantedBy, forall_said]
  have hmetadata (k : MetadataKey) :
      heldArg jsonCpp realString calls (.metadata k) = (Values.wanted jsonCpp realString calls).argument (.metadata k) ↔
        ((Values.wanted jsonCpp realString calls).metadata k = [] →
          ∀ call ∈ calls, ∀ v, k.wantedBy call = some v → v = []) := by
    rw [heldArg_eq_argument_iff]
    simp [Values.argument, ArgKey.wantedBy, forall_said]
  have hnumber (k : NumberKey) :
      heldArg jsonCpp realString calls (.number k) = (Values.wanted jsonCpp realString calls).argument (.number k) ↔
        ((Values.wanted jsonCpp realString calls).number k = none →
          ∀ call ∈ calls, call.gets ≠ some k ∧ ∀ v, k.wantedBy call = some v → v = none) := by
    rw [heldArg_eq_argument_iff]
    simp only [Values.argument, Option.map_eq_none_iff, ArgKey.wantedBy, forall_said, Option.map_eq_some_iff]
    refine imp_congr_right fun _ => ?_
    constructor
    · rintro ⟨hvalues, hgets⟩ call hcall
      refine ⟨fun hget => hgets call hcall k hget rfl, fun v hv => ?_⟩
      simpa using hvalues call hcall (v.map printInt) ⟨v, hv, rfl⟩
    · intro h
      refine ⟨?_, ?_⟩
      · rintro call hcall a ⟨v, hv, rfl⟩
        rw [(h call hcall).2 v hv, Option.map_none]
      · rintro call hcall k' hget heq
        exact (h call hcall).1 (by rw [hget, ArgKey.number.inj heq])
  constructor
  · intro h
    exact ⟨fun k => (htext k).mp (congrFun h _), fun k => (hmetadata k).mp (congrFun h _),
      fun k => (hnumber k).mp (congrFun h _)⟩
  · rintro ⟨ht, hm, hn⟩
    funext k
    cases k with
    | text k => exact (htext k).mpr (ht k)
    | metadata k => exact (hmetadata k).mpr (hm k)
    | number k => exact (hnumber k).mpr (hn k)

theorem heldFlag_eq (k : FlagKey) :
    heldFlag jsonCpp realString calls k = (lastWord k.givenBy calls).getD false := by
  simp only [heldFlag, sets_assignments, ← List.filterMap_eq_flatMap_toList, lastWord]

theorem flag_wanted (k : FlagKey) :
    (Values.wanted jsonCpp realString calls).flag k = (said k.wantedBy calls).getLast?.getD false := rfl

/-- A flag that stays is right if it is wanted in the end or was never wanted. -/
theorem heldFlag_eq_flag_iff {k : FlagKey} (hk : k ≠ .dstFileReport) :
    heldFlag jsonCpp realString calls k = (Values.wanted jsonCpp realString calls).flag k ↔
      (k.stays = true → (Values.wanted jsonCpp realString calls).flag k = false →
        ∀ call ∈ calls, k.wantedBy call ≠ some true) := by
  have hgiven : lastWord k.givenBy calls =
      ((said k.wantedBy calls).filterMap fun set => if set || !k.stays then some set else none).getLast? := by
    rw [said, List.filterMap_filterMap, lastWord]
    congr 2
    funext call
    cases k <;> first
      | rfl
      | exact absurd rfl hk
  rw [heldFlag_eq, flag_wanted, hgiven]
  cases hstays : k.stays with
  | false => simp
  | true =>
      simp only [Bool.not_true, Bool.or_false, forall_const]
      rw [getLast?_filterMap_set, forall_said]
      refine imp_congr_right fun _ => forall₂_congr fun call _ => ?_
      exact ⟨fun h hset => h true hset rfl, fun h set hset htrue => h (htrue ▸ hset)⟩

/-- The report of the destination is taken back by the next transfer that is archived. -/
theorem heldFlag_dstFileReport
    (h : (Values.wanted jsonCpp realString calls).flag .archiving = false →
      ∀ call ∈ calls, FlagKey.archiving.wantedBy call ≠ some true) :
    heldFlag jsonCpp realString calls .dstFileReport = (Values.wanted jsonCpp realString calls).flag .dstFileReport := by
  have htransfers {α : Type} (field : TransferFile → α) :
      said (ofTransfer field) calls = (said (ofTransfer id) calls).map field := by
    rw [said, said, List.map_filterMap]
    refine congrArg (List.filterMap · calls) (funext fun call => ?_)
    cases call <;> rfl
  have hgiven : calls.filterMap FlagKey.dstFileReport.givenBy =
      (said (ofTransfer id) calls).filterMap fun t =>
        if 0 < t.archiveTimeout then some (decide (0 < t.archiveTimeout ∧ t.dstFileReport ≠ [])) else none := by
    rw [said, List.filterMap_filterMap]
    refine congrArg (List.filterMap · calls) (funext fun call => ?_)
    cases call <;> simp [FlagKey.givenBy, FlagKey.wantedBy, ofTransfer]
  generalize said (ofTransfer id) calls = ts at htransfers hgiven
  rw [flag_wanted, FlagKey.wantedBy, htransfers] at h
  rw [heldFlag_eq, lastWord, hgiven, flag_wanted, FlagKey.wantedBy, htransfers, List.getLast?_map]
  cases hlast : ts.getLast? with
  | none =>
      rw [List.getLast?_eq_none_iff.mp hlast]
      rfl
  | some t =>
      by_cases harchiving : 0 < t.archiveTimeout
      · rw [getLast?_filterMap_of_bind (b := decide (0 < t.archiveTimeout ∧ t.dstFileReport ≠ []))]
        · rfl
        · rw [hlast, Option.bind_some, if_pos harchiving]
      · have hnever := h (by simp [List.getLast?_map, hlast, harchiving])
        have hnone : ∀ t ∈ ts, ¬ 0 < t.archiveTimeout := by
          intro t ht harchived
          have hmem : decide (0 < t.archiveTimeout) ∈ said FlagKey.archiving.wantedBy calls := by
            rw [FlagKey.wantedBy, htransfers]
            exact List.mem_map_of_mem ht
          obtain ⟨call, hcall, hset⟩ := List.mem_filterMap.mp hmem
          exact hnever call hcall (hset.trans (by rw [decide_eq_true harchived]))
        rw [List.filterMap_eq_nil_iff.mpr fun t ht => if_neg (hnone t ht)]
        simp [harchiving]

/-- The command holds what is wanted, and only that, if and only if the calls are settled. -/
theorem held_eq_wanted_iff :
    heldArg jsonCpp realString calls = (Values.wanted jsonCpp realString calls).argument ∧
      heldFlag jsonCpp realString calls = (Values.wanted jsonCpp realString calls).flag ↔
    Settled jsonCpp realString calls := by
  rw [heldArg_eq_argument]
  constructor
  · rintro ⟨⟨htext, hmetadata, hnumber⟩, hflag⟩
    refine ⟨htext, hmetadata, hnumber, fun k hk => ?_⟩
    have hne : k ≠ .dstFileReport := by
      rintro rfl
      cases hk
    exact (heldFlag_eq_flag_iff jsonCpp realString hne).mp (congrFun hflag k) hk
  · rintro ⟨htext, hmetadata, hnumber, hflag⟩
    refine ⟨⟨htext, hmetadata, hnumber⟩, funext fun k => ?_⟩
    by_cases hk : k = .dstFileReport
    · subst hk
      exact heldFlag_dstFileReport jsonCpp realString (hflag .archiving rfl)
    · exact (heldFlag_eq_flag_iff jsonCpp realString hk).mpr (hflag k)

end settled

/-! ## One transfer -/

def Call.isTransfer : Call → Bool
  | .setFromTransfer _ _ _ _ => true
  | _ => false

/-- Around the one transfer that the command is for, the other setters do not matter. -/
theorem flag_ofCalls {k : FlagKey} {field : TransferFile → Bool} (hk : k.wantedBy = ofTransfer field)
    (hreport : k ≠ .dstFileReport) {before after : List Call} (hbefore : ∀ c ∈ before, c.isTransfer = false)
    (hafter : ∀ c ∈ after, c.isTransfer = false) (t : TransferFile) (isMultiple publishUserDn : Bool) (msgDir : Text) :
    .flag k ∈ (UrlCopyCmd.ofCalls jsonCpp realString
        (before ++ .setFromTransfer t isMultiple publishUserDn msgDir :: after)).flags ↔ field t = true := by
  have hnone (calls : List Call) (hcalls : ∀ c ∈ calls, c.isTransfer = false) : said k.wantedBy calls = [] := by
    rw [said, List.filterMap_eq_nil_iff, hk]
    intro c hc
    have hother := hcalls c hc
    cases c with
    | setFromTransfer => cases hother
    | _ => rfl
  have hsaid : said k.wantedBy (before ++ .setFromTransfer t isMultiple publishUserDn msgDir :: after) = [field t] := by
    have hself : k.wantedBy (.setFromTransfer t isMultiple publishUserDn msgDir) = some (field t) := by
      rw [hk]
      rfl
    have hrest := hnone after hafter
    rw [said] at hrest
    rw [said, List.filterMap_append, ← said, hnone before hbefore, List.nil_append, List.filterMap_cons_some hself, hrest]
  have hheld := (@heldFlag_eq_flag_iff jsonCpp realString (before ++ _ :: after) k hreport).mpr <| by
    rintro - hfalse call hcall hset
    have hmem : true ∈ said k.wantedBy (before ++ .setFromTransfer t isMultiple publishUserDn msgDir :: after) :=
      List.mem_filterMap.mpr ⟨call, hcall, hset⟩
    rw [hsaid, List.mem_singleton] at hmem
    rw [flag_wanted, hsaid, ← hmem] at hfalse
    cases hfalse
  rw [(holds_ofCalls jsonCpp realString _).flags]
  rw [flag_wanted, hsaid] at hheld
  constructor
  · rintro ⟨f, hf, hset⟩
    rw [← Key.flag.inj hf, hheld] at hset
    exact hset
  · exact fun hset => ⟨k, rfl, hheld.trans hset⟩

end calls

end Fts3.UrlCopy
