import Mathlib.Algebra.Group.Int.Defs
import Mathlib.Algebra.Group.Nat.Defs
import Mathlib.Data.List.Basic
import Mathlib.Data.List.Infix
import Mathlib.Data.List.TakeWhile

/-!
# Texts

Strings as lists of characters, with what programs do to them by a library: to replace, to split, and to read lines and
numbers.
-/

namespace Fts3

/-- A `std::string`. -/
abbrev Text := List Char

namespace Text

section lists

variable {α : Type} [DecidableEq α]

/-! ## Replacing -/

/-- Replaces what is found from the left; `skip` characters belong to the occurrence before. -/
def replaceFrom (pattern replacement : List α) : Nat → List α → List α
  | _, [] => []
  | skip + 1, _ :: cs => replaceFrom pattern replacement skip cs
  | 0, c :: cs =>
      if pattern ≠ [] ∧ pattern <+: c :: cs then replacement ++ replaceFrom pattern replacement (pattern.length - 1) cs
      else c :: replaceFrom pattern replacement 0 cs

/-- `boost::replace_all_copy`. -/
def replaceAll (pattern replacement text : List α) : List α :=
  replaceFrom pattern replacement 0 text

theorem replaceAll_singleton (a : α) (replacement text : List α) :
    replaceAll [a] replacement text = text.flatMap fun c => if c = a then replacement else [c] := by
  unfold replaceAll
  induction text with
  | nil => rfl
  | cons c cs ih =>
      by_cases h : c = a
      · simp [replaceFrom, h, ih]
      · simp [replaceFrom, h, Ne.symm h, ih]

theorem replaceAll_char (a b : α) (text : List α) :
    replaceAll [a] [b] text = text.map fun c => if c = a then b else c := by
  rw [replaceAll_singleton]
  induction text with
  | nil => rfl
  | cons c cs ih => by_cases h : c = a <;> simp [h, ih]

theorem replaceAll_of_not_infix {pattern : List α} (replacement : List α) {text : List α} (h : ¬ pattern <:+: text) :
    replaceAll pattern replacement text = text := by
  unfold replaceAll
  induction text with
  | nil => rfl
  | cons c cs ih =>
      have hnot : ¬ pattern <+: c :: cs := fun hprefix => h hprefix.isInfix
      rw [replaceFrom, if_neg fun hfound => hnot hfound.2, ih fun hinfix => h (List.infix_cons hinfix)]

/-- What is put before each `b` is taken from it again. -/
theorem replaceAll_escaped {a b : α} (hab : a ≠ b) (text : List α) :
    replaceAll [a, b] [b] (text.flatMap fun c => if c = b then [a, b] else [c]) = text := by
  unfold replaceAll
  induction text with
  | nil => rfl
  | cons c cs ih =>
      by_cases hc : c = b
      · simp [hc, replaceFrom, ih]
      · -- a `b` that follows has an `a` before it
        have hnot : ¬ [a, b] <+: c :: cs.flatMap fun c => if c = b then [a, b] else [c] := by
          intro hprefix
          rw [List.cons_prefix_cons] at hprefix
          cases cs with
          | nil => simp at hprefix
          | cons d ds =>
              by_cases hd : d = b
              · simp [hd, Ne.symm hab] at hprefix
              · simp [hd, Ne.symm hd] at hprefix
        simp [hc, replaceFrom, hnot, ih]

/-- `find` and `replace`: the first occurrence only. -/
def replaceFirst (pattern replacement text : List α) : List α :=
  match text.dropInfix? pattern with
  | none => text
  | some (before, after) => before ++ replacement ++ after

/-! ## Splitting -/

/-- The parts between separators, without the empty ones. -/
def tokens (sep : α) (text : List α) : List (List α) :=
  (text.splitOn sep).filter (· ≠ [])

@[simp] theorem tokens_nil (sep : α) : tokens sep [] = [] := by
  simp [tokens]

theorem tokens_append (sep : α) (text text' : List α) :
    tokens sep (text ++ sep :: text') = tokens sep text ++ tokens sep text' := by
  rw [tokens, List.splitOn_append_cons_self, List.filter_append]
  rfl

theorem tokens_eq_singleton {sep : α} {text : List α} (hsep : sep ∉ text) (hne : text ≠ []) : tokens sep text = [text] := by
  simp [tokens, List.splitOn_eq_singleton hsep, hne]

theorem tokens_intercalate (sep : α) (fields : List (List α)) :
    tokens sep ([sep].intercalate fields) = fields.flatMap (tokens sep) := by
  induction fields with
  | nil => simp
  | cons field fields ih =>
      cases fields with
      | nil => simp
      | cons field' fields =>
          rw [List.intercalate_cons_cons, List.append_assoc, List.singleton_append, tokens_append, ih]
          rfl

theorem not_mem_of_mem_splitOn {sep : α} {text part : List α} (h : part ∈ text.splitOn sep) : sep ∉ part := by
  induction text generalizing part with
  | nil => simp_all
  | cons c cs ih =>
      rw [List.splitOn_cons_eq_if_modifyHead] at h
      by_cases hc : c = sep
      · rw [if_pos (beq_iff_eq.mpr hc)] at h
        rcases List.mem_cons.mp h with rfl | h
        · exact List.not_mem_nil
        · exact ih h
      · rw [if_neg (by simpa using hc)] at h
        cases hcs : cs.splitOn sep with
        | nil => exact absurd hcs (List.splitOn_ne_nil sep cs)
        | cons first parts =>
            rw [hcs, List.modifyHead_cons] at h
            rcases List.mem_cons.mp h with rfl | h
            · have hfirst : sep ∉ first := ih (by simp [hcs])
              simp [hfirst, Ne.symm hc]
            · exact ih (by simp [hcs, h])

/-- A token is not empty, and has no separator. -/
theorem ne_nil_of_mem_tokens {sep : α} {text token : List α} (h : token ∈ tokens sep text) : token ≠ [] ∧ sep ∉ token := by
  rw [tokens, List.mem_filter, decide_eq_true_eq] at h
  exact ⟨h.2, not_mem_of_mem_splitOn h.1⟩

theorem tokens_ne_nil {sep c : α} {text : List α} (hc : c ∈ text) (hsep : c ≠ sep) : tokens sep text ≠ [] := by
  intro hnil
  have hparts : ∀ part ∈ text.splitOn sep, part = [] := by simpa [tokens] using hnil
  have hjoin : [sep].intercalate (text.splitOn sep) = text := List.intercalate_splitOn sep
  rw [List.eq_replicate_of_mem hparts] at hjoin
  have hmem : ∀ n, c ∉ [sep].intercalate (List.replicate n []) := by
    intro n
    induction n with
    | zero => simp
    | succ n ih =>
        cases n with
        | zero => simp [List.replicate]
        | succ n => simpa [List.replicate, hsep] using ih
  exact hmem _ (hjoin.symm ▸ hc)

/-- A separator between two texts that have none splits them. -/
theorem two_le_length_tokens {sep : α} {first middle last : List α} (hfirst : first ≠ [] ∧ sep ∉ first)
    (hlast : last ≠ [] ∧ sep ∉ last) (h : sep ∈ middle) : 2 ≤ (tokens sep (first ++ middle ++ last)).length := by
  obtain ⟨before, after, rfl⟩ := List.append_of_mem h
  have hsplit : first ++ (before ++ sep :: after) ++ last = (first ++ before) ++ sep :: (after ++ last) := by simp
  rw [hsplit, tokens_append, List.length_append]
  have hbefore : tokens sep (first ++ before) ≠ [] := by
    obtain ⟨c, hc⟩ := List.exists_mem_of_ne_nil first hfirst.1
    exact tokens_ne_nil (List.mem_append_left _ hc) fun hsep => hfirst.2 (hsep ▸ hc)
  have hafter : tokens sep (after ++ last) ≠ [] := by
    obtain ⟨c, hc⟩ := List.exists_mem_of_ne_nil last hlast.1
    exact tokens_ne_nil (List.mem_append_right _ hc) fun hsep => hlast.2 (hsep ▸ hc)
  have := List.length_pos_iff.mpr hbefore
  have := List.length_pos_iff.mpr hafter
  omega

end lists

/-! ## Words in a sequence of texts -/

section words

variable {α : Type}

/-- The word is read where the two texts meet. -/
def Across (word text text' : List α) : Prop :=
  ∃ left right, left ≠ [] ∧ right ≠ [] ∧ word = left ++ right ∧ left <:+ text ∧ right <+: text'

/-- Words of a sequence of texts lie in one of them or across a place where two meet. -/
theorem infix_flatten_iff {word : List α} (hne : word ≠ []) (texts : List (List α)) :
    word <:+: texts.flatten ↔ (∃ text ∈ texts, word <:+: text) ∨
      ∃ before after, texts = before ++ after ∧ Across word before.flatten after.flatten := by
  constructor
  · induction texts with
    | nil => simp [hne]
    | cons text texts ih =>
        rw [List.flatten_cons, List.infix_append_iff_ne_nil]
        rintro (h | h | h)
        · exact .inl ⟨text, List.mem_cons_self, h⟩
        · rcases ih h with ⟨text', hmem, h⟩ | ⟨before, after, rfl, left, right, hleft, hright, rfl, hsuffix, hprefix⟩
          · exact .inl ⟨text', List.mem_cons_of_mem _ hmem, h⟩
          · exact .inr ⟨text :: before, after, rfl, left, right, hleft, hright, rfl,
              hsuffix.trans (List.suffix_append _ _), hprefix⟩
        · exact .inr ⟨[text], texts, rfl, by simpa [Across] using h⟩
  · rintro (⟨text, hmem, h⟩ | ⟨before, after, rfl, h⟩)
    · exact h.trans (List.infix_of_mem_flatten hmem)
    · rw [List.flatten_append, List.infix_append_iff_ne_nil]
      exact .inr (.inr h)

end words

/-! ## Reading up to a delimiter -/

section delimiter

variable {α : Type} {p : α → Bool} {text rest : List α}

theorem takeWhile_until (htext : ∀ c ∈ text, p c = true) (hrest : ∀ c ∈ rest.head?, p c = false) :
    (text ++ rest).takeWhile p = text := by
  rw [List.takeWhile_append_of_pos htext]
  cases rest with
  | nil => simp
  | cons c cs => simp [hrest c rfl]

end delimiter

/-! ## Lines -/

/-- What one `std::getline` after the other returns. -/
def getlines : Text → List Text
  | [] => []
  | c :: cs =>
      if c = '\n' then [] :: getlines cs
      else
        match getlines cs with
        | [] => [[c]]
        | line :: lines => (c :: line) :: lines

/-- The lines are the parts between the ends of lines, without an empty one at the end of the text. -/
theorem splitOn_eq_getlines (text : Text) :
    text.splitOn '\n' = getlines text ∨ text.splitOn '\n' = getlines text ++ [[]] := by
  induction text with
  | nil => simp [getlines]
  | cons c cs ih =>
      rw [List.splitOn_cons_eq_if_modifyHead, getlines]
      by_cases hc : c = '\n'
      · simpa [hc] using ih
      · cases hlines : getlines cs with
        | nil =>
            rw [hlines] at ih
            rcases ih with ih | ih
            · exact absurd ih (List.splitOn_ne_nil '\n' cs)
            · simp [hc, ih]
        | cons line lines =>
            rw [hlines] at ih
            rcases ih with ih | ih
            · simp [hc, ih]
            · simp [hc, ih]

theorem filter_getlines (text : Text) : (getlines text).filter (· ≠ []) = tokens '\n' text := by
  rw [tokens]
  rcases splitOn_eq_getlines text with h | h
  · rw [h]
  · simp [h]

/-! ## Numbers -/

/-- The value of decimal digits, if it has at most `w` bits. -/
def digitsValue (w : Nat) (digits : Text) : Option Nat :=
  if digits ≠ [] ∧ digits.all (·.isDigit) ∧ Nat.ofDigitChars 10 digits 0 < 2 ^ w then some (Nat.ofDigitChars 10 digits 0)
  else none

/-- `boost::lexical_cast` to an unsigned integer of `w` bits. A minus is taken modulo the width. -/
def lexicalCastUnsigned (w : Nat) : Text → Option Nat
  | '-' :: digits => (digitsValue w digits).map fun n => (2 ^ w - n) % 2 ^ w
  | '+' :: digits => digitsValue w digits
  | digits => digitsValue w digits

/-- `boost::lexical_cast` to a signed integer of `w` bits. -/
def lexicalCastSigned (w : Nat) : Text → Option Int
  | '-' :: digits => (digitsValue w digits).bind fun n => if n ≤ 2 ^ (w - 1) then some (-n) else none
  | '+' :: digits => (digitsValue w digits).bind fun n => if n < 2 ^ (w - 1) then some n else none
  | digits => (digitsValue w digits).bind fun n => if n < 2 ^ (w - 1) then some n else none

/-- `atoi` of glibc: `strtol`, which stops at its limits, cut down to 32 bits. -/
def atoi (text : Text) : Int :=
  let value : Int :=
    match text.dropWhile (· ∈ [' ', '\t', '\n', '\x0b', '\x0c', '\r']) with
    | '-' :: digits => -Nat.ofDigitChars 10 (digits.takeWhile (·.isDigit)) 0
    | '+' :: digits => Nat.ofDigitChars 10 (digits.takeWhile (·.isDigit)) 0
    | digits => Nat.ofDigitChars 10 (digits.takeWhile (·.isDigit)) 0
  (max (-2 ^ 63) (min (2 ^ 63 - 1) value)).bmod (2 ^ 32)

def printNat (n : Nat) : Text :=
  Nat.toDigits 10 n

def printInt (i : Int) : Text :=
  if i < 0 then '-' :: printNat i.natAbs else printNat i.natAbs

theorem toList_repr (i : Int) : i.repr.toList = printInt i := by
  rw [Int.repr_eq_if, printInt, printNat]
  rcases Int.lt_or_le i 0 with h | h
  · have hnat : (-i).toNat = i.natAbs := by omega
    simp [h, Int.not_le.mpr h, hnat]
  · have hnat : i.toNat = i.natAbs := by omega
    simp [h, Int.not_lt.mpr h, hnat]

theorem isDigit_of_mem_printNat {n : Nat} {c : Char} (h : c ∈ printNat n) : c.isDigit = true :=
  Nat.isDigit_of_mem_toDigits (by decide) (by decide) h

theorem printNat_ne_nil (n : Nat) : printNat n ≠ [] :=
  Nat.toDigits_ne_nil

theorem not_mem_printNat {n : Nat} {c : Char} (hc : c.isDigit = false) : c ∉ printNat n := by
  intro h
  exact absurd (isDigit_of_mem_printNat h) (by simp [hc])

theorem not_mem_printInt {i : Int} {c : Char} (hc : c.isDigit = false) (hminus : c ≠ '-') : c ∉ printInt i := by
  unfold printInt
  split
  · simp [hminus, not_mem_printNat hc]
  · exact not_mem_printNat hc

theorem printInt_ne_nil (i : Int) : printInt i ≠ [] := by
  unfold printInt
  split
  · simp
  · exact printNat_ne_nil _

theorem digitsValue_printNat {w n : Nat} (h : n < 2 ^ w) : digitsValue w (printNat n) = some n := by
  have hdigits : (printNat n).all (·.isDigit) = true := List.all_eq_true.mpr fun c hc => isDigit_of_mem_printNat hc
  have hvalue : Nat.ofDigitChars 10 (printNat n) 0 = n := Nat.ofDigitChars_ten_toDigits
  rw [digitsValue, hvalue, if_pos ⟨printNat_ne_nil n, hdigits, h⟩]

theorem takeWhile_isDigit_printNat (n : Nat) : (printNat n).takeWhile (·.isDigit) = printNat n :=
  List.takeWhile_eq_self_iff.mpr fun _ hc => isDigit_of_mem_printNat hc

theorem atoi_printNat {n : Nat} (h : n < 2 ^ 31) : atoi (printNat n) = n := by
  have hvalue : Nat.ofDigitChars 10 (printNat n) 0 = n := Nat.ofDigitChars_ten_toDigits
  have hblank : (printNat n).dropWhile (· ∈ [' ', '\t', '\n', '\x0b', '\x0c', '\r']) = printNat n := by
    cases hn : printNat n with
    | nil => rfl
    | cons c cs =>
        have hc : c.isDigit = true := isDigit_of_mem_printNat (n := n) (by simp [hn])
        have hblank : ∀ c ∈ [' ', '\t', '\n', '\x0b', '\x0c', '\r'], c.isDigit = false := by simp
        refine List.dropWhile_cons_of_neg fun hmem => ?_
        rw [hblank c (of_decide_eq_true hmem)] at hc
        cases hc
  have hminus : '-' ∉ printNat n := not_mem_printNat (by decide)
  have hplus : '+' ∉ printNat n := not_mem_printNat (by decide)
  have hcut : (max (-2 ^ 63) (min (2 ^ 63 - 1) (n : Int))).bmod (2 ^ 32) = n := by
    rw [Int.bmod_eq_of_le] <;> omega
  unfold atoi
  rw [hblank]
  split
  · simp_all
  · simp_all
  · rw [takeWhile_isDigit_printNat, hvalue, hcut]

theorem lexicalCastUnsigned_printNat {w n : Nat} (h : n < 2 ^ w) : lexicalCastUnsigned w (printNat n) = some n := by
  have hminus : '-' ∉ printNat n := not_mem_printNat (by decide)
  have hplus : '+' ∉ printNat n := not_mem_printNat (by decide)
  rw [← digitsValue_printNat h, lexicalCastUnsigned.eq_def]
  split
  · simp_all
  · simp_all
  · rfl

theorem lexicalCastUnsigned_printInt {w : Nat} {i : Int} (h : i.natAbs < 2 ^ w) :
    lexicalCastUnsigned w (printInt i) = some (if i < 0 then 2 ^ w - i.natAbs else i.natAbs) := by
  unfold printInt
  split
  case isTrue hneg =>
    have hlt : 2 ^ w - i.natAbs < 2 ^ w := by omega
    rw [lexicalCastUnsigned, digitsValue_printNat h, Option.map_some, Nat.mod_eq_of_lt hlt]
  case isFalse => exact lexicalCastUnsigned_printNat h

theorem digitsValue_printNat_eq_none {w n : Nat} (h : ¬ n < 2 ^ w) : digitsValue w (printNat n) = none := by
  have hvalue : Nat.ofDigitChars 10 (printNat n) 0 = n := Nat.ofDigitChars_ten_toDigits
  rw [digitsValue, hvalue, if_neg fun hdigits => h hdigits.2.2]

theorem digitsValue_printNat_eq {w n : Nat} : digitsValue w (printNat n) = if n < 2 ^ w then some n else none := by
  split
  · exact digitsValue_printNat ‹_›
  · exact digitsValue_printNat_eq_none ‹_›

theorem lexicalCastUnsigned_of_digits {w : Nat} {digits : Text} (h : ∀ c ∈ digits, c.isDigit = true) :
    lexicalCastUnsigned w digits = digitsValue w digits := by
  rw [lexicalCastUnsigned.eq_def]
  split
  · exact absurd (h '-' List.mem_cons_self) (by decide)
  · exact absurd (h '+' List.mem_cons_self) (by decide)
  · rfl

theorem lexicalCastSigned_of_digits {w : Nat} {digits : Text} (h : ∀ c ∈ digits, c.isDigit = true) :
    lexicalCastSigned w digits = (digitsValue w digits).bind fun n => if n < 2 ^ (w - 1) then some (n : Int) else none := by
  rw [lexicalCastSigned.eq_def]
  split
  · exact absurd (h '-' List.mem_cons_self) (by decide)
  · exact absurd (h '+' List.mem_cons_self) (by decide)
  · rfl

/-- A number that is not negative, and no other one, is read back as itself. -/
theorem lexicalCastUnsigned_printInt_eq {w : Nat} {i : Int} :
    lexicalCastUnsigned w (printInt i) = some i.toNat ↔ 0 ≤ i ∧ i < 2 ^ w := by
  have hpow : ((2 ^ w : Nat) : Int) = 2 ^ w := by simp
  by_cases h : i.natAbs < 2 ^ w
  · rw [lexicalCastUnsigned_printInt h, Option.some.injEq]
    split <;> omega
  · have hnone : lexicalCastUnsigned w (printInt i) = none := by
      unfold printInt
      split
      · rw [lexicalCastUnsigned, digitsValue_printNat_eq_none h, Option.map_none]
      · rw [lexicalCastUnsigned_of_digits fun c hc => isDigit_of_mem_printNat hc, digitsValue_printNat_eq_none h]
    rw [hnone]
    simp only [reduceCtorEq, false_iff]
    omega

theorem lexicalCastSigned_printInt {w : Nat} (hw : w ≠ 0) (i : Int) :
    lexicalCastSigned w (printInt i) = if -2 ^ (w - 1) ≤ i ∧ i < 2 ^ (w - 1) then some i else none := by
  have hpow : 2 ^ w = 2 * 2 ^ (w - 1) := by
    rw [← Nat.pow_succ', Nat.succ_eq_add_one, Nat.sub_add_cancel (Nat.pos_of_ne_zero hw)]
  have hcast : ((2 ^ (w - 1) : Nat) : Int) = 2 ^ (w - 1) := by simp
  unfold printInt
  split
  case isTrue hneg =>
    rw [lexicalCastSigned, digitsValue_printNat_eq]
    by_cases h : i.natAbs ≤ 2 ^ (w - 1)
    · rw [if_pos (by omega), Option.bind_some, if_pos h, if_pos (by omega), Option.some.injEq]
      omega
    · have hout : ¬ (-2 ^ (w - 1) ≤ i ∧ i < 2 ^ (w - 1)) := by omega
      rw [if_neg hout]
      split
      · rw [Option.bind_some, if_neg h]
      · rfl
  case isFalse hpos =>
    rw [lexicalCastSigned_of_digits fun c hc => isDigit_of_mem_printNat hc, digitsValue_printNat_eq]
    by_cases h : i.natAbs < 2 ^ (w - 1)
    · rw [if_pos (by omega), Option.bind_some, if_pos h, if_pos (by omega), Option.some.injEq]
      omega
    · have hout : ¬ (-2 ^ (w - 1) ≤ i ∧ i < 2 ^ (w - 1)) := by omega
      rw [if_neg hout]
      split
      · rw [Option.bind_some, if_neg h]
      · rfl

end Text

end Fts3
