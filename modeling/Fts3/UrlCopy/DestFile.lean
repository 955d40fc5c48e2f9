import Fts3.Common.Json
import Fts3.UrlCopy.Metadata

/-!
# The report on the destination file

When the destination exists, the metadata of the file go from the database to `fts_url_copy`, where a report is added to
them, and back to the database.
-/

namespace Fts3.UrlCopy

open Fts3.Text

structure DestFile where
  fileSize : UInt64 := 0
  checksumType : Text := []
  checksumValue : Text := []
  fileOnDisk : Bool := false
  fileOnTape : Bool := false

def DestFile.toJSON (d : DestFile) : Json :=
  .object (((((Json.Members.nil.insert "file_size".toList (.integer d.fileSize.toNat)).insert
    "checksum_type".toList (.string d.checksumType)).insert "checksum_value".toList (.string d.checksumValue)).insert
      "file_on_tape".toList (.boolean d.fileOnTape)).insert "file_on_disk".toList (.boolean d.fileOnDisk))

/-- The library for JSON. -/
structure JsonCpp where
  /-- what `>>` leaves in a value, and whether it has read the text -/
  read : Text → Json × Bool
  print : Json → Text

namespace JsonCpp

variable (jsonCpp : JsonCpp)

/-- The value that is printed; there is none when an exception is thrown. -/
def appended (fileMetadata : Text) (dstFile : Json) : Option Json :=
  let metadata :=
    if fileMetadata = [] then some .null
    else
      match jsonCpp.read (replaceMetadataString fileMetadata) with
      | (metadata, true) => some metadata
      | (metadata, false) => metadata.set "file_metadata".toList (.string fileMetadata)
  metadata.bind (·.set "dst_file".toList dstFile)

def appendDestFileToFileMetadata (fileMetadata : Text) (dstFile : Json) : Option Text :=
  (jsonCpp.appended fileMetadata dstFile).map jsonCpp.print

/-- The metadata that come back to the database: prepared by the server, with the report of the process, and as its last
message has them. An exception leaves the metadata of the transfer as they are. -/
def reported (fileMetadata : Text) (d : DestFile) : Text :=
  let prepared := prepareMetadataString fileMetadata
  replaceMetadataString ((jsonCpp.appendDestFileToFileMetadata prepared d.toJSON).getD prepared)

/-! ## What the library is relied on for -/

def blanked (text : Text) : Text :=
  text.map fun c => if c = '?' then ' ' else c

/-- The value is printed as a JSON text: it can be read, a backslash stands before a quote only where a text has a quote or
ends with a backslash, and question marks and blanks stand for themselves. -/
structure Faithful (v : Json) : Prop where
  read : jsonCpp.read (jsonCpp.print v) = (v, true)
  quote : (∀ s ∈ v.strings, '"' ∉ s ∧ s.getLast? ≠ some '\\') → ¬ ['\\', '"'] <:+: jsonCpp.print v
  blank : (∀ key ∈ v.keys, '?' ∉ key) → jsonCpp.print (v.mapStrings blanked) = blanked (jsonCpp.print v)

/-! ## What is preserved -/

/-- The text that comes back is an object with the report, and with the members of the object that the metadata were, or
with the metadata themselves. -/
def Preserved (fileMetadata : Text) (d : DestFile) : Prop :=
  ∃ w, jsonCpp.read (jsonCpp.reported fileMetadata d) = (w, true) ∧ w.isObject = true ∧
    w.get "dst_file".toList = some d.toJSON ∧
      (fileMetadata ≠ [] →
        if (jsonCpp.read fileMetadata).2 = true ∧ (jsonCpp.read fileMetadata).1.isObject = true then
          ∀ key, key ≠ "dst_file".toList → w.get key = (jsonCpp.read fileMetadata).1.get key
        else w.get "file_metadata".toList = some (.string fileMetadata))

/-- The report can be added: there are no metadata, or they are an object, or are not read as JSON at all. -/
def Appendable (fileMetadata : Text) : Prop :=
  fileMetadata = [] ∨ ((jsonCpp.read fileMetadata).1.isObject = true ∨
    (jsonCpp.read fileMetadata).2 = false ∧ (jsonCpp.read fileMetadata).1 = .null)

/-- Neither a question mark nor what is printed with a backslash before a quote. -/
def Harmless (text : Text) : Prop :=
  '?' ∉ text ∧ '"' ∉ text ∧ text.getLast? ≠ some '\\'

instance (text : Text) : Decidable (Harmless text) :=
  inferInstanceAs (Decidable (_ ∧ _ ∧ _))

/-- The texts are harmless, except for those of a report that is already there: what is read as JSON reads the same without
its question marks. -/
structure Clean (fileMetadata : Text) (d : DestFile) : Prop where
  checksumType : Harmless d.checksumType
  checksumValue : Harmless d.checksumValue
  same : fileMetadata ≠ [] → (jsonCpp.read fileMetadata).2 = true → (jsonCpp.read (blanked fileMetadata)).2 = true ∧
    (jsonCpp.read (blanked fileMetadata)).1.erase "dst_file".toList =
      (jsonCpp.read fileMetadata).1.erase "dst_file".toList
  strings : fileMetadata ≠ [] → (jsonCpp.read fileMetadata).2 = true →
    ∀ s ∈ ((jsonCpp.read fileMetadata).1.erase "dst_file".toList).strings, Harmless s
  text : fileMetadata ≠ [] → (jsonCpp.read fileMetadata).2 = false →
    Harmless fileMetadata ∧ ∀ s ∈ (jsonCpp.read fileMetadata).1.strings, Harmless s

section proofs

variable {jsonCpp} {fileMetadata : Text} {d : DestFile}

theorem blanked_eq_self {text : Text} (h : '?' ∉ text) : blanked text = text := by
  have hself : ∀ c ∈ text, (if c = '?' then ' ' else c) = c := by
    intro c hc
    have hmark : c ≠ '?' := by
      rintro rfl
      exact h hc
    rw [if_neg hmark]
  rw [blanked, List.map_congr_left hself, List.map_id']

theorem replaceMetadataString_eq (text : Text) :
    replaceMetadataString text = replaceAll ['\\', '"'] ['"'] (blanked text) := by
  rw [replaceMetadataString, replaceAll_char]
  rfl

/-- Without quotes, only the blanks have changed. -/
theorem blanked_prepareMetadataString {text : Text} (h : Harmless text) : blanked (prepareMetadataString text) = text := by
  obtain ⟨hmark, hquote, -⟩ := h
  rw [prepareMetadataString_eq]
  induction text with
  | nil => rfl
  | cons c cs ih =>
      have ih' := ih (fun h => hmark (List.mem_cons_of_mem c h)) fun h => hquote (List.mem_cons_of_mem c h)
      have hmark' : c ≠ '?' := fun h => hmark (h ▸ List.mem_cons_self)
      have hquote' : c ≠ '"' := fun h => hquote (h ▸ List.mem_cons_self)
      rw [blanked] at ih' ⊢
      rw [List.flatMap_cons, List.map_append, ih']
      by_cases hblank : c = ' '
      · simp [escapeMetadata, hblank]
      · simp [escapeMetadata, hblank, hmark', hquote']

theorem strings_toJSON (d : DestFile) : d.toJSON.strings =
    ["checksum_type".toList, d.checksumType, "checksum_value".toList, d.checksumValue, "file_on_disk".toList,
      "file_on_tape".toList, "file_size".toList] :=
  rfl

theorem Clean.report (h : jsonCpp.Clean fileMetadata d) : ∀ s ∈ d.toJSON.strings, Harmless s := by
  rw [strings_toJSON]
  have hkeys : Harmless "checksum_type".toList ∧ Harmless "checksum_value".toList ∧ Harmless "file_on_disk".toList ∧
      Harmless "file_on_tape".toList ∧ Harmless "file_size".toList := by
    decide
  simp only [List.forall_mem_cons, List.not_mem_nil, false_implies, implies_true, and_true]
  exact ⟨hkeys.1, h.checksumType, hkeys.2.1, h.checksumValue, hkeys.2.2⟩

/-- The value that is read from what has been printed. -/
theorem read_reported {v : Json} (happended : jsonCpp.appended (prepareMetadataString fileMetadata) d.toJSON = some v)
    (hv : jsonCpp.Faithful v ∧ jsonCpp.Faithful (v.mapStrings blanked)) (hkeys : ∀ key ∈ v.keys, '?' ∉ key)
    (hstrings : ∀ s ∈ (v.mapStrings blanked).strings, Harmless s) :
    jsonCpp.read (jsonCpp.reported fileMetadata d) = (v.mapStrings blanked, true) := by
  have hquote : ¬ ['\\', '"'] <:+: jsonCpp.print (v.mapStrings blanked) := hv.2.quote fun s hs => (hstrings s hs).2
  have hprint : jsonCpp.reported fileMetadata d = jsonCpp.print (v.mapStrings blanked) := by
    simp only [reported, appendDestFileToFileMetadata, happended, Option.map_some, Option.getD_some]
    rw [replaceMetadataString_eq, ← hv.1.blank hkeys, replaceAll_of_not_infix _ hquote]
  rw [hprint, hv.2.read]

theorem read_reported_of_harmless {v : Json}
    (happended : jsonCpp.appended (prepareMetadataString fileMetadata) d.toJSON = some v)
    (hv : jsonCpp.Faithful v ∧ jsonCpp.Faithful (v.mapStrings blanked)) (hstrings : ∀ s ∈ v.strings, Harmless s) :
    jsonCpp.read (jsonCpp.reported fileMetadata d) = (v, true) := by
  have hself : v.mapStrings blanked = v := v.mapStrings_eq_self fun s hs => blanked_eq_self (hstrings s hs).1
  have hread := read_reported happended hv (fun key hkey => (hstrings key (v.mem_strings_of_mem_keys hkey)).1)
    (by rw [hself]; exact hstrings)
  rwa [hself] at hread

/-- An exception brings the metadata back as they were, without their question marks. -/
theorem reported_of_none (happended : jsonCpp.appended (prepareMetadataString fileMetadata) d.toJSON = none) :
    jsonCpp.reported fileMetadata d = blanked fileMetadata := by
  simp only [reported, appendDestFileToFileMetadata, happended, Option.map_none, Option.getD_none]
  exact replace_prepareMetadataString fileMetadata

theorem appended_nil : jsonCpp.appended (prepareMetadataString []) d.toJSON = Json.null.set "dst_file".toList d.toJSON :=
  rfl

/-- The process reads the metadata without their question marks. -/
theorem appended_of_read (hne : fileMetadata ≠ []) (hread : (jsonCpp.read (blanked fileMetadata)).2 = true) :
    jsonCpp.appended (prepareMetadataString fileMetadata) d.toJSON =
      (jsonCpp.read (blanked fileMetadata)).1.set "dst_file".toList d.toJSON := by
  rw [appended, if_neg (mt prepareMetadataString_eq_nil.mp hne), replace_prepareMetadataString]
  change (match jsonCpp.read (blanked fileMetadata) with
    | (metadata, true) => some metadata
    | (metadata, false) => metadata.set "file_metadata".toList (.string (prepareMetadataString fileMetadata))).bind _ = _
  generalize jsonCpp.read (blanked fileMetadata) = answer at hread ⊢
  obtain ⟨v, ok⟩ := answer
  obtain rfl : ok = true := hread
  rfl

theorem appended_of_not_read (hne : fileMetadata ≠ []) (hread : (jsonCpp.read fileMetadata).2 = false)
    (hmark : '?' ∉ fileMetadata) : jsonCpp.appended (prepareMetadataString fileMetadata) d.toJSON =
      ((jsonCpp.read fileMetadata).1.set "file_metadata".toList (.string (prepareMetadataString fileMetadata))).bind
        (·.set "dst_file".toList d.toJSON) := by
  rw [appended, if_neg (mt prepareMetadataString_eq_nil.mp hne), replace_prepareMetadataString_eq_self.mpr hmark]
  generalize jsonCpp.read fileMetadata = answer at hread ⊢
  obtain ⟨v, ok⟩ := answer
  obtain rfl : ok = false := hread
  rfl

theorem harmless_dst_file : Harmless "dst_file".toList := by
  decide

theorem harmless_file_metadata : Harmless "file_metadata".toList := by
  decide

theorem Clean.harmless_set {v w : Json} (hclean : jsonCpp.Clean fileMetadata d)
    (hw : v.set "dst_file".toList d.toJSON = some w) (hv : ∀ s ∈ (v.erase "dst_file".toList).strings, Harmless s) :
    ∀ s ∈ w.strings, Harmless s := by
  intro s hs
  rcases Json.strings_set hw hs with rfl | hs | hs
  · exact harmless_dst_file
  · exact hclean.report s hs
  · exact hv s hs

theorem preserved_nil (hJ : ∀ v, jsonCpp.appended (prepareMetadataString []) d.toJSON = some v →
    jsonCpp.Faithful v ∧ jsonCpp.Faithful (v.mapStrings blanked)) (hclean : jsonCpp.Clean [] d) :
    jsonCpp.Preserved [] d := by
  obtain ⟨w, hw⟩ : ∃ w, Json.null.set "dst_file".toList d.toJSON = some w := ⟨_, rfl⟩
  have happended : jsonCpp.appended (prepareMetadataString []) d.toJSON = some w := appended_nil.trans hw
  have hstrings := hclean.harmless_set hw fun s hs => absurd hs List.not_mem_nil
  refine ⟨w, read_reported_of_harmless happended (hJ w happended) hstrings, Json.isObject_of_set hw, ?_,
    fun hne => absurd rfl hne⟩
  rw [Json.get_set hw, if_pos rfl]

/-- Metadata that are an object keep their members. -/
theorem preserved_object (hJ : ∀ v, jsonCpp.appended (prepareMetadataString fileMetadata) d.toJSON = some v →
    jsonCpp.Faithful v ∧ jsonCpp.Faithful (v.mapStrings blanked)) (hclean : jsonCpp.Clean fileMetadata d)
    (hne : fileMetadata ≠ []) (hread : (jsonCpp.read fileMetadata).2 = true)
    (hobject : (jsonCpp.read fileMetadata).1.isObject = true) : jsonCpp.Preserved fileMetadata d := by
  obtain ⟨hread', hsame⟩ := hclean.same hne hread
  have hobject' : (jsonCpp.read (blanked fileMetadata)).1.isObject = true := by
    rw [← Json.isObject_erase _ "dst_file".toList, hsame, Json.isObject_erase, hobject]
  obtain ⟨w, hw⟩ := Json.exists_set_of_isObject "dst_file".toList d.toJSON hobject'
  have happended : jsonCpp.appended (prepareMetadataString fileMetadata) d.toJSON = some w :=
    (appended_of_read hne hread').trans hw
  have hstrings := hclean.harmless_set hw (hsame.symm ▸ hclean.strings hne hread)
  refine ⟨w, read_reported_of_harmless happended (hJ w happended) hstrings, Json.isObject_of_set hw, ?_, fun _ => ?_⟩
  · rw [Json.get_set hw, if_pos rfl]
  · rw [if_pos ⟨hread, hobject⟩]
    intro key hkey
    rw [Json.get_set hw, if_neg (Ne.symm hkey), ← Json.get_erase _ (Ne.symm hkey), hsame, Json.get_erase _ (Ne.symm hkey)]

/-- Metadata that are not read as JSON are kept as a text. -/
theorem preserved_text (hJ : ∀ v, jsonCpp.appended (prepareMetadataString fileMetadata) d.toJSON = some v →
    jsonCpp.Faithful v ∧ jsonCpp.Faithful (v.mapStrings blanked)) (hclean : jsonCpp.Clean fileMetadata d)
    (hne : fileMetadata ≠ []) (hread : (jsonCpp.read fileMetadata).2 = false)
    (hleft : (jsonCpp.read fileMetadata).1.isObject = true ∨ (jsonCpp.read fileMetadata).1 = .null) :
    jsonCpp.Preserved fileMetadata d := by
  obtain ⟨htext, hstrings⟩ := hclean.text hne hread
  generalize hv : (jsonCpp.read fileMetadata).1 = v at hleft hstrings
  have hsome : ∀ k x, ∃ w, v.set k x = some w := by
    intro k x
    rcases hleft with hobject | rfl
    · exact Json.exists_set_of_isObject k x hobject
    · exact ⟨_, rfl⟩
  obtain ⟨v₁, hv₁⟩ := hsome "file_metadata".toList (.string (prepareMetadataString fileMetadata))
  obtain ⟨w, hw⟩ := Json.exists_set_of_isObject "dst_file".toList d.toJSON (Json.isObject_of_set hv₁)
  have happended : jsonCpp.appended (prepareMetadataString fileMetadata) d.toJSON = some w := by
    rw [appended_of_not_read hne hread htext.1, hv, hv₁]
    exact hw
  -- the two assignments after the blanks have come back
  have hkeys : ∀ key ∈ v.keys, '?' ∉ key := fun key hkey => (hstrings key (v.mem_strings_of_mem_keys hkey)).1
  have hkeys₁ : ∀ key ∈ v₁.keys, '?' ∉ key := by
    intro key hkey
    rcases Json.keys_set hv₁ hkey with rfl | hkey | hkey
    · exact harmless_file_metadata.1
    · exact absurd hkey List.not_mem_nil
    · exact hkeys key hkey
  have hv₁' : v.set "file_metadata".toList (.string fileMetadata) = some (v₁.mapStrings blanked) := by
    have hset := Json.mapStrings_set hv₁ (blanked_eq_self harmless_file_metadata.1) fun key hkey =>
      blanked_eq_self (hkeys key hkey)
    rw [v.mapStrings_eq_self fun s hs => blanked_eq_self (hstrings s hs).1] at hset
    rwa [Json.mapStrings, blanked_prepareMetadataString htext] at hset
  have hw' : (v₁.mapStrings blanked).set "dst_file".toList d.toJSON = some (w.mapStrings blanked) := by
    have hset := Json.mapStrings_set hw (blanked_eq_self harmless_dst_file.1) fun key hkey =>
      blanked_eq_self (hkeys₁ key hkey)
    rwa [d.toJSON.mapStrings_eq_self fun s hs => blanked_eq_self (hclean.report s hs).1] at hset
  have hharmless : ∀ s ∈ (w.mapStrings blanked).strings, Harmless s := by
    refine hclean.harmless_set hw' fun s hs => ?_
    rcases Json.strings_set hv₁' (Json.strings_erase _ _ hs) with rfl | hs | hs
    · exact harmless_file_metadata
    · obtain rfl := List.mem_singleton.mp hs
      exact htext
    · exact hstrings s (Json.strings_erase v _ hs)
  have hkeys' : ∀ key ∈ w.keys, '?' ∉ key := by
    intro key hkey
    rcases Json.keys_set hw hkey with rfl | hkey | hkey
    · exact harmless_dst_file.1
    · exact (hclean.report key (d.toJSON.mem_strings_of_mem_keys hkey)).1
    · exact hkeys₁ key hkey
  refine ⟨w.mapStrings blanked, read_reported happended (hJ w happended) hkeys' hharmless, Json.isObject_of_set hw', ?_,
    fun _ => ?_⟩
  · rw [Json.get_set hw', if_pos rfl]
  · rw [if_neg (by simp [hread]), Json.get_set hw', if_neg (by decide), Json.get_set hv₁', if_pos rfl]

/-- What else is read as JSON is lost, or comes back without the report. -/
theorem appendable_of_preserved (hJ : ∀ v, jsonCpp.appended (prepareMetadataString fileMetadata) d.toJSON = some v →
    jsonCpp.Faithful v ∧ jsonCpp.Faithful (v.mapStrings blanked)) (hclean : jsonCpp.Clean fileMetadata d)
    (h : jsonCpp.Preserved fileMetadata d) : jsonCpp.Appendable fileMetadata := by
  by_contra hnot
  obtain ⟨hne, hobject, hnull⟩ : fileMetadata ≠ [] ∧ (jsonCpp.read fileMetadata).1.isObject = false ∧
      ((jsonCpp.read fileMetadata).2 = false → (jsonCpp.read fileMetadata).1 ≠ .null) := by
    simpa [Appendable] using hnot
  obtain ⟨w, hread, hisObject, -, hmetadata⟩ := h
  cases hok : (jsonCpp.read fileMetadata).2 with
  | true =>
      obtain ⟨hok', hsame⟩ := hclean.same hne hok
      have hnot' : (jsonCpp.read (blanked fileMetadata)).1.isObject = false := by
        rw [← Json.isObject_erase _ "dst_file".toList, hsame, Json.isObject_erase, hobject]
      by_cases hv : (jsonCpp.read (blanked fileMetadata)).1 = .null
      · obtain ⟨w', hw'⟩ : ∃ w, Json.null.set "dst_file".toList d.toJSON = some w := ⟨_, rfl⟩
        have happended : jsonCpp.appended (prepareMetadataString fileMetadata) d.toJSON = some w' := by
          rw [appended_of_read hne hok', hv]
          exact hw'
        have hread' := read_reported_of_harmless happended (hJ w' happended)
          (hclean.harmless_set hw' fun s hs => absurd hs List.not_mem_nil)
        obtain rfl : w = w' := congrArg Prod.fst (hread.symm.trans hread')
        have hget := hmetadata hne
        rw [if_neg (by simp [hobject]), Json.get_set hw', if_neg (by decide)] at hget
        cases hget
      · have happended : jsonCpp.appended (prepareMetadataString fileMetadata) d.toJSON = none := by
          rw [appended_of_read hne hok', Json.set_eq_none _ _ hv hnot']
        rw [reported_of_none happended] at hread
        rw [hread] at hnot'
        exact absurd (hisObject.symm.trans hnot') (by decide)
  | false =>
      have hmark := (hclean.text hne hok).1.1
      have happended : jsonCpp.appended (prepareMetadataString fileMetadata) d.toJSON = none := by
        rw [appended_of_not_read hne hok hmark, Json.set_eq_none _ _ (hnull hok) hobject]
        rfl
      rw [reported_of_none happended, blanked_eq_self hmark] at hread
      rw [hread] at hok
      cases hok

/-- Metadata whose texts have no question marks and are printed without a backslash before a quote, but for those of an
earlier report, come back as they were, with the new report, if and only if they are none, an object or not read as JSON;
whatever the library is, as long as it prints the value as a JSON text. -/
theorem dest_file_report (jsonCpp : JsonCpp) (fileMetadata : Text) (d : DestFile)
    (hJ : ∀ v, jsonCpp.appended (prepareMetadataString fileMetadata) d.toJSON = some v →
      jsonCpp.Faithful v ∧ jsonCpp.Faithful (v.mapStrings blanked)) (hclean : jsonCpp.Clean fileMetadata d) :
    jsonCpp.Preserved fileMetadata d ↔ jsonCpp.Appendable fileMetadata := by
  refine ⟨appendable_of_preserved hJ hclean, fun h => ?_⟩
  by_cases hne : fileMetadata = []
  · subst hne
    exact preserved_nil hJ hclean
  · have hleft := h.resolve_left hne
    cases hread : (jsonCpp.read fileMetadata).2 with
    | true => exact preserved_object hJ hclean hne hread (hleft.resolve_right fun hnull => by simp [hread] at hnull)
    | false => exact preserved_text hJ hclean hne hread (hleft.imp_right (·.2))

end proofs

section fixed

def tapeFile : DestFile :=
  { fileSize := 10, checksumType := "ADLER32".toList, checksumValue := "1a".toList, fileOnTape := true }

/-- An object with the report and a member that comes after it, as the library prints it. -/
def printedWith (key value : Text) : Text :=
  "\x7b\n\t\"dst_file\" : \n\t\x7b\n".toList ++ "\t\t\"checksum_type\" : \"ADLER32\",\n".toList ++
    "\t\t\"checksum_value\" : \"1a\",\n".toList ++ "\t\t\"file_on_disk\" : false,\n".toList ++
      "\t\t\"file_on_tape\" : true,\n".toList ++ "\t\t\"file_size\" : 10\n\t\x7d,\n\t\"".toList ++
        key ++ "\" : \"".toList ++ value ++ "\"\n\x7d".toList

def reportWith (key value : Text) : Json :=
  .object ((Json.Members.nil.insert key (.string value)).insert "dst_file".toList tapeFile.toJSON)

def plainRead (text : Text) : Json × Bool :=
  if text = printedWith "file_metadata".toList "This?is?a?test".toList then
    (reportWith "file_metadata".toList "This?is?a?test".toList, true)
  else if text = printedWith "file_metadata".toList "This is a test".toList then
    (reportWith "file_metadata".toList "This is a test".toList, true)
  else (.null, false)

/-- What the library does with a plain text, with the report and without. -/
def plainLibrary : JsonCpp where
  read := plainRead
  print v :=
    match v.get "file_metadata".toList with
    | some (.string s) => printedWith "file_metadata".toList s
    | _ => []

theorem read_plainLibrary : plainLibrary.read = plainRead := rfl

theorem faithful_plain : plainLibrary.Faithful (reportWith "file_metadata".toList "This?is?a?test".toList) ∧
    plainLibrary.Faithful (reportWith "file_metadata".toList "This is a test".toList) := by
  have hmark : plainLibrary.print (reportWith "file_metadata".toList "This?is?a?test".toList) =
      printedWith "file_metadata".toList "This?is?a?test".toList := rfl
  have hblank : plainLibrary.print (reportWith "file_metadata".toList "This is a test".toList) =
      printedWith "file_metadata".toList "This is a test".toList := rfl
  have hdiffer : printedWith "file_metadata".toList "This is a test".toList ≠
      printedWith "file_metadata".toList "This?is?a?test".toList := by
    decide +kernel
  constructor
  · refine ⟨?_, fun _ => ?_, fun _ => ?_⟩
    · rw [hmark, read_plainLibrary, plainRead, if_pos rfl]
    · rw [hmark]
      decide +kernel
    · rw [hmark]
      decide +kernel
  · refine ⟨?_, fun _ => ?_, fun _ => ?_⟩
    · rw [hblank, read_plainLibrary, plainRead, if_neg hdiffer, if_pos rfl]
    · rw [hblank]
      decide +kernel
    · rw [hblank]
      decide +kernel

theorem dest_file_report_plain : plainLibrary.Preserved "This is a test".toList tapeFile := by
  have hprepared : prepareMetadataString "This is a test".toList = "This?is?a?test".toList := by decide
  have hread : plainLibrary.read "This is a test".toList = (.null, false) := by
    rw [read_plainLibrary, plainRead, if_neg (by decide +kernel), if_neg (by decide +kernel)]
  have happended : plainLibrary.appended (prepareMetadataString "This is a test".toList) tapeFile.toJSON =
      some (reportWith "file_metadata".toList "This?is?a?test".toList) := by
    rw [appended_of_not_read (by decide) (by rw [hread]) (by decide), hread, hprepared]
    rfl
  refine (dest_file_report plainLibrary "This is a test".toList tapeFile ?_ ?_).mpr
    (.inr (.inr ⟨by rw [hread], by rw [hread]⟩))
  · intro v hv
    rw [happended] at hv
    cases hv
    exact faithful_plain
  · refine ⟨by decide, by decide, fun _ hok => ?_, fun _ hok => ?_, fun _ _ => ⟨by decide, fun s hs => ?_⟩⟩
    · rw [hread] at hok
      cases hok
    · rw [hread] at hok
      cases hok
    · rw [hread] at hs
      exact absurd hs List.not_mem_nil

def arrayRead (text : Text) : Json × Bool :=
  if text = "[1]".toList then (.array (.cons (.integer 1) .nil), true) else (.null, false)

def quoteRead (text : Text) : Json × Bool :=
  if text = "\x7b\"note\":\"\\\"\"\x7d".toList then (.object (.cons "note".toList (.string ['"']) .nil), true)
  else if text = printedWith "note".toList ['\\', '"'] then (reportWith "note".toList ['"'], true)
  else (.null, false)

def arrayLibrary : JsonCpp :=
  ⟨arrayRead, fun _ => []⟩

def quoteLibrary : JsonCpp :=
  ⟨quoteRead, fun _ => printedWith "note".toList ['\\', '"']⟩

theorem read_quoteLibrary : quoteLibrary.read = quoteRead := rfl

theorem print_quoteLibrary (v : Json) : quoteLibrary.print v = printedWith "note".toList ['\\', '"'] := rfl

/-- An array comes back without the report, and an object with a quote in a text as something that is not JSON any more. -/
theorem dest_file_report_lost :
    ¬ arrayLibrary.Preserved "[1]".toList tapeFile ∧ quoteLibrary.Faithful (reportWith "note".toList ['"']) ∧
      ¬ quoteLibrary.Preserved "\x7b\"note\":\"\\\"\"\x7d".toList tapeFile := by
  refine ⟨?_, ⟨?_, ?_, ?_⟩, ?_⟩
  · rintro ⟨w, hread, hobject, -⟩
    have hreported : arrayLibrary.reported "[1]".toList tapeFile = "[1]".toList := by
      decide +kernel
    rw [hreported] at hread
    cases hread
    cases hobject
  · rw [print_quoteLibrary, read_quoteLibrary, quoteRead, if_neg (by decide +kernel), if_pos rfl]
  · intro h
    exact absurd List.mem_cons_self (h ['"'] (by decide +kernel)).1
  · intro _
    rw [print_quoteLibrary, print_quoteLibrary]
    decide +kernel
  · rintro ⟨w, hread, -⟩
    have hreported : quoteLibrary.reported "\x7b\"note\":\"\\\"\"\x7d".toList tapeFile =
        printedWith "note".toList ['"'] := by
      decide +kernel
    rw [hreported, read_quoteLibrary, quoteRead, if_neg (by decide +kernel), if_neg (by decide +kernel)] at hread
    cases hread

end fixed

end JsonCpp

end Fts3.UrlCopy
