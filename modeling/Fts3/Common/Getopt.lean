import Mathlib.Data.List.TakeWhile
import Fts3.Common.Text

/-!
# Options of a command line

`getopt_long_only` without short options: what it returns, call by call, for the arguments of a program.
-/

namespace Fts3.Getopt

structure LongOption (ω : Type) where
  name : Text
  /-- `required_argument` and not `no_argument` -/
  hasArg : Bool
  val : ω

/-- An option is returned with its argument, what is no option is moved behind the options, and anything else is returned
as a question mark. -/
inductive Parsed (ω : Type)
  | option (val : ω) (optarg : Option Text)
  | nonOption (text : Text)
  | unrecognized
  deriving Repr, DecidableEq

variable {ω : Type} {options : List (LongOption ω)} {o : LongOption ω} {name : Text}

/-- The option of the name, or the only one whose name starts with it. -/
def find (options : List (LongOption ω)) (name : Text) : Option (LongOption ω) :=
  (options.find? (·.name = name)).or <|
    match options.filter (name <+: ·.name) with
    | [o] => some o
    | _ => none

/-- One or two dashes stand before the name. -/
def stripDashes : Text → Text
  | '-' :: '-' :: text => text
  | '-' :: text => text
  | text => text

/-- The name, and the argument that an equals sign puts to it. -/
def splitName (text : Text) : Text × Option Text :=
  (text.takeWhile (· != '='), (text.dropWhile (· != '=')).tail?)

def getoptLongOnly (options : List (LongOption ω)) : List Text → List (Parsed ω)
  | [] => []
  | arg :: args =>
      if arg = ['-', '-'] then args.map .nonOption
      else if arg.head? ≠ some '-' ∨ arg = ['-'] then .nonOption arg :: getoptLongOnly options args
      else
        let (name, assigned) := splitName (stripDashes arg)
        match find options name, assigned with
        | none, _ => .unrecognized :: getoptLongOnly options args
        | some o, some optarg =>
            (if o.hasArg then .option o.val (some optarg) else .unrecognized) :: getoptLongOnly options args
        | some o, none =>
            if o.hasArg then
              match args with
              | [] => [.unrecognized]
              -- whatever comes next is the argument
              | optarg :: args => .option o.val (some optarg) :: getoptLongOnly options args
            else .option o.val none :: getoptLongOnly options args

@[simp] theorem getoptLongOnly_nil : getoptLongOnly options [] = [] := by
  rw [getoptLongOnly]

@[simp] theorem getoptLongOnly_empty (args : List Text) :
    getoptLongOnly options ([] :: args) = .nonOption [] :: getoptLongOnly options args := by
  rw [getoptLongOnly]
  simp

/-- A name as it is written on a command line. -/
def dashed (name : Text) : Text :=
  '-' :: '-' :: name

theorem splitName_eq (heq : '=' ∉ name) : splitName name = (name, none) := by
  have hall : ∀ c ∈ name, (c != '=') = true := by
    intro c hc
    rw [bne_iff_ne]
    rintro rfl
    exact heq hc
  have hdrop : name.dropWhile (· != '=') = [] := by
    rw [List.dropWhile_eq_nil_iff]
    exact hall
  rw [splitName, hdrop, List.takeWhile_eq_self_iff.mpr hall]
  rfl

section dashed

variable (hfind : find options name = some o) (hne : name ≠ []) (heq : '=' ∉ name)

include hfind hne heq

theorem getoptLongOnly_flag (harg : o.hasArg = false) (args : List Text) :
    getoptLongOnly options (dashed name :: args) = .option o.val none :: getoptLongOnly options args := by
  rw [getoptLongOnly]
  simp [dashed, hne, stripDashes, splitName_eq heq, hfind, harg]

theorem getoptLongOnly_option (harg : o.hasArg = true) (optarg : Text) (args : List Text) :
    getoptLongOnly options (dashed name :: optarg :: args) =
      .option o.val (some optarg) :: getoptLongOnly options args := by
  rw [getoptLongOnly]
  simp [dashed, hne, stripDashes, splitName_eq heq, hfind, harg]

end dashed

theorem suffix_of_splitName {arg optarg : Text} (h : (splitName (stripDashes arg)).2 = some optarg) : optarg <:+ arg := by
  have hstrip : stripDashes arg <:+ arg := by
    fun_cases stripDashes arg with
    | case1 text => exact ⟨['-', '-'], rfl⟩
    | case2 text => exact ⟨['-'], rfl⟩
    | case3 => exact List.suffix_rfl
  refine List.IsSuffix.trans ?_ hstrip
  obtain ⟨c, hc⟩ : ∃ c, (stripDashes arg).dropWhile (· != '=') = c :: optarg := by
    simp only [splitName] at h
    cases hdrop : (stripDashes arg).dropWhile (· != '=') with
    | nil => simp [hdrop] at h
    | cons c cs =>
        simp only [hdrop, List.tail?_cons, Option.some.injEq] at h
        exact ⟨c, by rw [h]⟩
  have hsuffix := List.dropWhile_suffix (l := stripDashes arg) (· != '=')
  rw [hc] at hsuffix
  exact (List.suffix_cons c optarg).trans hsuffix

/-- The argument of an option stands on the command line, at the end of one of the program's arguments. -/
theorem suffix_of_mem_getoptLongOnly {val : ω} {optarg : Text} (args : List Text)
    (h : .option val (some optarg) ∈ getoptLongOnly options args) : ∃ arg ∈ args, optarg <:+ arg := by
  have hcons {first : Text} {args : List Text} (h : ∃ arg ∈ args, optarg <:+ arg) :
      ∃ arg ∈ first :: args, optarg <:+ arg := by
    obtain ⟨arg, harg, hsuffix⟩ := h
    exact ⟨arg, List.mem_cons_of_mem _ harg, hsuffix⟩
  fun_induction getoptLongOnly options args with
  | case1 => cases h
  | case2 => simp at h
  | case3 arg args _ _ ih => exact hcons (ih (by simpa using h))
  | case4 arg args _ _ _ _ _ _ ih => exact hcons (ih (by simpa using h))
  | case5 arg args _ _ _ o assigned _ hsplit ih =>
      rw [List.mem_cons] at h
      cases h with
      | inl h =>
          split at h
          · injection h with _ h
            injection h with h
            exact ⟨arg, List.mem_cons_self, h ▸ suffix_of_splitName (by rw [hsplit])⟩
          · cases h
      | inr h => exact hcons (ih h)
  | case6 => simp at h
  | case7 arg _ _ _ o _ _ next args _ ih =>
      rw [List.mem_cons] at h
      cases h with
      | inl h =>
          injection h with _ h
          injection h with h
          exact ⟨next, by simp, h ▸ List.suffix_rfl⟩
      | inr h => exact hcons (hcons (ih h))
  | case8 arg args _ _ _ o _ _ _ ih => exact hcons (ih (by simpa using h))

end Fts3.Getopt
