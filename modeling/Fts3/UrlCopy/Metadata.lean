import Fts3.Common.Text

/-!
# Metadata on a command line

The server writes a text without blanks and with a backslash before each quote, and `fts_url_copy` takes both away again.
-/

namespace Fts3.UrlCopy

open Fts3.Text

def prepareMetadataString (text : Text) : Text :=
  replaceAll ['"'] ['\\', '"'] (replaceAll [' '] ['?'] text)

def replaceMetadataString (text : Text) : Text :=
  replaceAll ['\\', '"'] ['"'] (replaceAll ['?'] [' '] text)

/-- The characters that a character is written as. -/
def escapeMetadata (c : Char) : Text :=
  if c = ' ' then ['?'] else if c = '"' then ['\\', '"'] else [c]

theorem prepareMetadataString_eq (text : Text) : prepareMetadataString text = text.flatMap escapeMetadata := by
  rw [prepareMetadataString, replaceAll_singleton, replaceAll_singleton, List.flatMap_assoc]
  congr 1
  funext c
  by_cases hc : c = ' '
  · simp [escapeMetadata, hc]
  · simp [escapeMetadata, hc]

/-- A question mark comes back as a blank, and every other character as it was. -/
theorem replace_prepareMetadataString (text : Text) :
    replaceMetadataString (prepareMetadataString text) = text.map fun c => if c = '?' then ' ' else c := by
  have hquotes : replaceAll ['?'] [' '] (prepareMetadataString text) =
      (text.map fun c => if c = '?' then ' ' else c).flatMap fun c => if c = '"' then ['\\', '"'] else [c] := by
    rw [replaceAll_singleton, prepareMetadataString_eq, List.flatMap_assoc, List.flatMap_map]
    congr 1
    funext c
    by_cases hblank : c = ' '
    · simp [escapeMetadata, hblank]
    · by_cases hquote : c = '"'
      · simp [escapeMetadata, hquote]
      · by_cases hmark : c = '?'
        · simp [escapeMetadata, hmark]
        · simp [escapeMetadata, hblank, hquote, hmark]
  rw [replaceMetadataString, hquotes]
  exact replaceAll_escaped (by decide) _

theorem replace_prepareMetadataString_eq_self {text : Text} :
    replaceMetadataString (prepareMetadataString text) = text ↔ '?' ∉ text := by
  rw [replace_prepareMetadataString]
  constructor
  · intro h hmark
    rw [← h, List.mem_map] at hmark
    obtain ⟨c, -, hc⟩ := hmark
    split at hc
    · exact absurd hc (by decide)
    · contradiction
  · intro h
    have hself : ∀ c ∈ text, (if c = '?' then ' ' else c) = c := by
      intro c hc
      have hmark : c ≠ '?' := by
        rintro rfl
        exact h hc
      rw [if_neg hmark]
    rw [List.map_congr_left hself, List.map_id']

/-- Nothing that splits an argument is left. -/
theorem blank_not_mem_prepareMetadataString (text : Text) : ' ' ∉ prepareMetadataString text := by
  rw [prepareMetadataString_eq, List.mem_flatMap]
  rintro ⟨c, -, hc⟩
  unfold escapeMetadata at hc
  split at hc
  · simp at hc
  · split at hc
    · simp at hc
    case isFalse hblank _ => exact hblank (List.mem_singleton.mp hc).symm

theorem mem_prepareMetadataString {c : Char} (hblank : c ≠ ' ') (hmark : c ≠ '?') (hslash : c ≠ '\\') {text : Text} :
    c ∈ prepareMetadataString text ↔ c ∈ text := by
  rw [prepareMetadataString_eq, List.mem_flatMap]
  constructor
  · rintro ⟨d, hd, hc⟩
    unfold escapeMetadata at hc
    split at hc
    · simp_all
    · split at hc
      · simp_all
      · simp_all
  · intro hc
    refine ⟨c, hc, ?_⟩
    by_cases hquote : c = '"'
    · simp [escapeMetadata, hquote]
    · simp [escapeMetadata, hblank, hquote]

@[simp] theorem prepareMetadataString_eq_nil {text : Text} : prepareMetadataString text = [] ↔ text = [] := by
  rw [prepareMetadataString_eq]
  cases text with
  | nil => simp
  | cons c cs =>
      simp only [List.flatMap_cons, List.append_eq_nil_iff, reduceCtorEq, iff_false, not_and]
      unfold escapeMetadata
      split
      · simp
      · split <;> simp

/-- The text that stands for an empty one. -/
theorem prepareMetadataString_eq_x {text : Text} : prepareMetadataString text = ['x'] ↔ text = ['x'] := by
  constructor
  · intro h
    cases text with
    | nil => exact absurd h (by decide)
    | cons c cs =>
        rw [prepareMetadataString_eq, List.flatMap_cons, ← prepareMetadataString_eq] at h
        unfold escapeMetadata at h
        split at h
        · simp at h
        · split at h
          · simp at h
          · simp_all
  · rintro rfl
    decide

end Fts3.UrlCopy
