import Fts3.UrlCopy.Transfer

/-!
# Query strings

The loop of `sanitizeQueryString` on positions of the text, and what it leaves of a query string.
-/

namespace Fts3.UrlCopy

/-! ## The loop -/

/-- `find` and `find_first_not_of`, from a position on. -/
def findFrom (p : Char → Bool) (text : Text) (pos : Nat) : Option Nat :=
  ((text.drop pos).findIdx? p).map (· + pos)

/-- `copy.replace(pos + 1, endpos - pos - 1, "<redacted>")` -/
def redactAt (copy : Text) (pos : Nat) : Text :=
  let endpos := (findFrom (· ∉ allowedOpaque) copy (pos + 1)).getD copy.length
  copy.take (pos + 1) ++ "<redacted>".toList ++ copy.drop endpos

def sanitizeLoop : Nat → Text → Option Nat → Option Text
  | _, copy, none => some copy
  | 0, _, some _ => none
  | fuel + 1, copy, some pos =>
      let copy := redactAt copy pos
      sanitizeLoop fuel copy (findFrom (· = '?') copy (pos + 1))

section loop

theorem findFrom_append (p : Char → Bool) (before rest : Text) :
    findFrom p (before ++ rest) before.length = (rest.findIdx? p).map (· + before.length) := by
  rw [findFrom, List.drop_left]

theorem findIdx?_until {p : Char → Bool} {before rest : Text} {c : Char} (hbefore : ∀ d ∈ before, p d = false)
    (hc : p c = true) : (before ++ c :: rest).findIdx? p = some before.length := by
  induction before with
  | nil => simp [List.findIdx?_cons, hc]
  | cons d before ih =>
      rw [List.cons_append, List.findIdx?_cons, hbefore d (by simp), ih fun d hd => hbefore d (by simp [hd])]
      rfl

theorem dropWhile_allowed {c : Char} (cs : Text) (hc : c ∈ allowedOpaque) :
    (c :: cs).dropWhile (· ∈ allowedOpaque) = cs.dropWhile (· ∈ allowedOpaque) :=
  List.dropWhile_cons_of_pos (decide_eq_true hc)

theorem dropWhile_not_allowed {c : Char} (cs : Text) (hc : c ∉ allowedOpaque) :
    (c :: cs).dropWhile (· ∈ allowedOpaque) = c :: cs :=
  List.dropWhile_cons_of_neg fun h => hc (of_decide_eq_true h)

/-- The characters from the first one outside of the alphabet on. -/
theorem drop_endpos (before rest : Text) :
    (before ++ rest).drop ((findFrom (· ∉ allowedOpaque) (before ++ rest) before.length).getD
      (before ++ rest).length) = rest.dropWhile (· ∈ allowedOpaque) := by
  rw [findFrom_append]
  induction rest generalizing before with
  | nil => simp
  | cons c cs ih =>
      rw [List.findIdx?_cons]
      by_cases hc : c ∈ allowedOpaque
      · have hstep := ih (before ++ [c])
        simp only [List.append_assoc, List.singleton_append, List.length_append, List.length_singleton] at hstep
        rw [dropWhile_allowed cs hc, ← hstep, decide_eq_false (not_not.mpr hc)]
        cases cs.findIdx? fun d => decide (d ∉ allowedOpaque) with
        | none => simp
        | some i => simp [Nat.add_comm, Nat.add_left_comm]
      · rw [dropWhile_not_allowed cs hc, decide_eq_true hc]
        simp

theorem redactAt_append (before after : Text) :
    redactAt (before ++ '?' :: after) before.length =
      before ++ '?' :: "<redacted>".toList ++ after.dropWhile (· ∈ allowedOpaque) := by
  have hsplit : before ++ '?' :: after = (before ++ ['?']) ++ after := by simp
  have hlength : before.length + 1 = (before ++ ['?']).length := by simp
  rw [redactAt, hsplit, hlength, List.take_left, drop_endpos]
  simp

theorem sanitizeFrom_skip {c : Char} (cs : Text) (hc : c ∈ allowedOpaque) :
    sanitizeFrom true (c :: cs) = sanitizeFrom true cs := by
  rw [sanitizeFrom, if_pos ⟨rfl, hc⟩]

theorem sanitizeFrom_end {c : Char} (cs : Text) (hc : c ∉ allowedOpaque) :
    sanitizeFrom true (c :: cs) = sanitizeFrom false (c :: cs) := by
  have hfalse : ¬(false = true ∧ c ∈ allowedOpaque) := fun h => hc h.2
  rw [sanitizeFrom, sanitizeFrom, if_neg fun h => hc h.2, if_neg hfalse]

theorem sanitizeFrom_keep {c : Char} (cs : Text) (hc : c ≠ '?') :
    sanitizeFrom false (c :: cs) = c :: sanitizeFrom false cs := by
  have hfalse : ¬(false = true ∧ c ∈ allowedOpaque) := fun h => Bool.false_ne_true h.1
  rw [sanitizeFrom, if_neg hfalse, if_neg hc]

theorem sanitizeFrom_start (cs : Text) :
    sanitizeFrom false ('?' :: cs) = '?' :: "<redacted>".toList ++ sanitizeFrom true cs := by
  have hfalse : ¬(false = true ∧ '?' ∈ allowedOpaque) := fun h => Bool.false_ne_true h.1
  rw [sanitizeFrom, if_neg hfalse, if_pos rfl]

theorem sanitizeFrom_of_no_query {text : Text} (h : '?' ∉ text) : sanitizeFrom false text = text := by
  induction text with
  | nil => rfl
  | cons c cs ih =>
      obtain ⟨hc, hcs⟩ := not_or.mp fun hmem => h (List.mem_cons.mpr hmem)
      rw [sanitizeFrom_keep cs (Ne.symm hc), ih hcs]

theorem sanitizeFrom_query {before : Text} (after : Text) (h : '?' ∉ before) :
    sanitizeFrom false (before ++ '?' :: after) =
      before ++ '?' :: "<redacted>".toList ++ sanitizeFrom true after := by
  induction before with
  | nil => exact sanitizeFrom_start after
  | cons c cs ih =>
      obtain ⟨hc, hcs⟩ := not_or.mp fun hmem => h (List.mem_cons.mpr hmem)
      rw [List.cons_append, sanitizeFrom_keep _ (Ne.symm hc), ih hcs]
      rfl

/-- The characters of the query string are skipped; the next one is read as outside of it. -/
theorem sanitizeFrom_true (text : Text) :
    sanitizeFrom true text = sanitizeFrom false (text.dropWhile (· ∈ allowedOpaque)) := by
  induction text with
  | nil => rfl
  | cons c cs ih =>
      by_cases hc : c ∈ allowedOpaque
      · rw [sanitizeFrom_skip cs hc, ih, dropWhile_allowed cs hc]
      · rw [sanitizeFrom_end cs hc, dropWhile_not_allowed cs hc]

/-- The search goes on inside of the text that was put in, which has no query. -/
theorem findFrom_redacted (before rest : Text) :
    findFrom (· = '?') (before ++ '?' :: "<redacted>".toList ++ rest) (before.length + 1) =
      (rest.findIdx? (· = '?')).map (· + (before ++ '?' :: "<redacted>".toList).length) := by
  have hsplit : before ++ '?' :: "<redacted>".toList ++ rest =
      (before ++ ['?']) ++ ("<redacted>".toList ++ rest) := by simp
  have hlength : before.length + 1 = (before ++ ['?']).length := by simp
  have hinserted : ("<redacted>".toList ++ rest).findIdx? (· = '?') =
      (rest.findIdx? (· = '?')).map (· + 10) := by
    have hnone : "<redacted>".toList.findIdx? (· = '?') = none := by decide
    rw [List.findIdx?_append, hnone, Option.none_or]
    rfl
  rw [hsplit, hlength, findFrom_append, hinserted, Option.map_map]
  congr 1
  funext i
  simp [Nat.add_comm, Nat.add_left_comm]

/-- What stands before `before.length` is done, and has no more query. -/
theorem sanitizeLoop_eq {fuel : Nat} (before rest : Text) (hfuel : rest.length < fuel) :
    sanitizeLoop fuel (before ++ rest) ((rest.findIdx? (· = '?')).map (· + before.length)) =
      some (before ++ sanitizeFrom false rest) := by
  induction fuel generalizing before rest with
  | zero => omega
  | succ fuel ih =>
      by_cases hquery : '?' ∈ rest
      · obtain ⟨first, after, rfl, hfirst⟩ := List.eq_append_cons_of_mem hquery
        have hpos : (first ++ '?' :: after).findIdx? (· = '?') = some first.length :=
          findIdx?_until (fun d hd => decide_eq_false fun heq => hfirst (heq ▸ hd)) (by simp)
        have hcopy : before ++ (first ++ '?' :: after) = (before ++ first) ++ '?' :: after := by simp
        have hat : first.length + before.length = (before ++ first).length := by simp [Nat.add_comm]
        have hshort : (after.dropWhile (· ∈ allowedOpaque)).length < fuel := by
          have := (List.dropWhile_sublist (fun c => decide (c ∈ allowedOpaque)) (l := after)).length_le
          simp only [List.length_append, List.length_cons] at hfuel
          omega
        rw [hpos, Option.map_some, hcopy, hat, sanitizeLoop, redactAt_append, findFrom_redacted,
          ih _ _ hshort, sanitizeFrom_query after hfirst, sanitizeFrom_true]
        simp
      · rw [sanitizeFrom_of_no_query hquery, List.findIdx?_eq_none_iff.mpr fun d hd => ?_]
        · rfl
        · exact decide_eq_false fun heq => hquery (heq ▸ hd)

/-- The loop ends, with the text that `sanitizeQueryString` returns. -/
theorem sanitizeLoop_ends (text : Text) :
    sanitizeLoop (text.length + 1) text (findFrom (· = '?') text 0) = some (sanitizeQueryString text) := by
  have hloop := sanitizeLoop_eq [] text (Nat.lt_succ_self _)
  simpa [findFrom, sanitizeQueryString] using hloop

end loop

/-! ## What is left of a query -/

/-- The characters of RFC 3986 that stand for themselves in a query. -/
def queryChars : Text :=
  "abcdefghijklmnopqrstuvwxyzABCDEFGHIJKLMNOPQRSTUVWXYZ0123456789-._~!$&'()*+,;=:@/?".toList

def hexDigits : Text := "0123456789abcdefABCDEF".toList

inductive IsQuery : Text → Prop
  | nil : IsQuery []
  | char {c : Char} {q : Text} (hc : c ∈ queryChars) (hq : IsQuery q) : IsQuery (c :: q)
  | escape {a b : Char} {q : Text} (ha : a ∈ hexDigits) (hb : b ∈ hexDigits) (hq : IsQuery q) :
      IsQuery ('%' :: a :: b :: q)

/-- The output for `q` is that of any query of the alphabet in its place. -/
def HidesQuery (a q b : Text) : Prop :=
  ∀ q', IsQuery q' → (∀ c ∈ q', c ∈ allowedOpaque) →
    sanitizeQueryString (a ++ '?' :: (q ++ b)) = sanitizeQueryString (a ++ '?' :: (q' ++ b))

theorem IsQuery.not_inserted {q : Text} (h : IsQuery q) : ∀ c ∈ q, c ∉ ['<', '>'] := by
  have hchars : ∀ c ∈ queryChars, c ∉ ['<', '>'] := List.forall_mem_iff_getElem.mpr (by decide +kernel)
  have hhex : ∀ c ∈ hexDigits, c ∉ ['<', '>'] := List.forall_mem_iff_getElem.mpr (by decide +kernel)
  induction h with
  | nil => simp
  | char hc hq ih =>
      rintro d (_ | ⟨_, hd⟩)
      · exact hchars _ hc
      · exact ih d hd
  | escape ha hb hq ih =>
      intro d hd
      simp only [List.mem_cons] at hd
      rcases hd with rfl | rfl | rfl | hd
      · decide
      · exact hhex _ ha
      · exact hhex _ hb
      · exact ih d hd

section query

/-- What comes before a query does not depend on it. -/
theorem sanitizeFrom_before (inQuery : Bool) (a : Text) :
    ∃ out, ∀ rest, sanitizeFrom inQuery (a ++ '?' :: rest) = out ++ sanitizeFrom true rest := by
  have hmark : '?' ∈ allowedOpaque := by decide
  induction a generalizing inQuery with
  | nil =>
      cases inQuery with
      | true => exact ⟨[], fun rest => sanitizeFrom_skip rest hmark⟩
      | false => exact ⟨'?' :: "<redacted>".toList, sanitizeFrom_start⟩
  | cons c cs ih =>
      by_cases hskip : inQuery = true ∧ c ∈ allowedOpaque
      · obtain ⟨out, hout⟩ := ih true
        exact ⟨out, fun rest => by rw [List.cons_append, sanitizeFrom, if_pos hskip, hout]⟩
      · by_cases hquery : c = '?'
        · obtain ⟨out, hout⟩ := ih true
          refine ⟨'?' :: "<redacted>".toList ++ out, fun rest => ?_⟩
          rw [List.cons_append, sanitizeFrom, if_neg hskip, if_pos hquery, hout, List.append_assoc]
        · obtain ⟨out, hout⟩ := ih false
          refine ⟨c :: out, fun rest => ?_⟩
          rw [List.cons_append, sanitizeFrom, if_neg hskip, if_neg hquery, hout, List.cons_append]

theorem sanitizeFrom_allowed {q : Text} (rest : Text) (hq : ∀ c ∈ q, c ∈ allowedOpaque) :
    sanitizeFrom true (q ++ rest) = sanitizeFrom true rest := by
  induction q with
  | nil => rfl
  | cons c q ih =>
      rw [List.cons_append, sanitizeFrom_skip _ (hq c (by simp)), ih fun d hd => hq d (by simp [hd])]

/-- Every character outside of the alphabet is kept. -/
theorem count_sanitizeFrom {c : Char} (hc : c ∉ allowedOpaque) (hinserted : c ∉ ['<', '>']) (inQuery : Bool)
    (text : Text) : (sanitizeFrom inQuery text).count c = text.count c := by
  have hmark : '?' ∈ allowedOpaque := by decide
  have hletters : ∀ d ∈ "redacted".toList, d ∈ allowedOpaque :=
    List.forall_mem_iff_getElem.mpr (by decide +kernel)
  have hredacted : ("<redacted>".toList).count c = 0 := by
    rw [List.count_eq_zero]
    intro hmem
    have hparts : "<redacted>".toList = '<' :: "redacted".toList ++ ['>'] := rfl
    rw [hparts, List.cons_append, List.mem_cons, List.mem_append] at hmem
    rcases hmem with h | h | h
    · exact hinserted (List.mem_cons.mpr (.inl h))
    · exact hc (hletters c h)
    · exact hinserted (List.mem_cons_of_mem _ h)
  induction text generalizing inQuery with
  | nil => rfl
  | cons d cs ih =>
      rw [sanitizeFrom]
      split
      · rename_i hskip
        have hne : d ≠ c := fun heq => hc (heq ▸ hskip.2)
        rw [ih, List.count_cons_of_ne hne]
      · split
        · rename_i hquery
          have hne : '?' ≠ c := fun heq => hc (heq ▸ hmark)
          rw [hquery, List.cons_append, List.count_cons_of_ne hne, List.count_append, hredacted, ih,
            List.count_cons_of_ne hne, Nat.zero_add]
        · rw [List.count_cons, List.count_cons, ih]

/-- The query is hidden exactly if each of its characters is in the alphabet of `sanitizeQueryString`. -/
theorem hidesQuery_iff {a q b : Text} (hq : IsQuery q) : HidesQuery a q b ↔ ∀ c ∈ q, c ∈ allowedOpaque := by
  constructor
  · intro hhides c hc
    by_contra hout
    have hempty : sanitizeQueryString (a ++ '?' :: (q ++ b)) = sanitizeQueryString (a ++ '?' :: b) :=
      hhides [] .nil (by simp)
    have hcount := congrArg (List.count c) hempty
    simp only [sanitizeQueryString, count_sanitizeFrom hout (hq.not_inserted c hc), List.count_append,
      List.count_cons] at hcount
    have hpos : 0 < q.count c := List.count_pos_iff.mpr hc
    omega
  · intro hallowed q' _ hallowed'
    obtain ⟨out, hout⟩ := sanitizeFrom_before false a
    rw [sanitizeQueryString, sanitizeQueryString, hout, hout, sanitizeFrom_allowed b hallowed,
      sanitizeFrom_allowed b hallowed']

end query

/-- `sanitizeQueryString` ends, leaves a text without a query as it is, and hides the queries of its alphabet and no
other one. -/
theorem query_strings_redacted_iff (text a q b : Text) :
    sanitizeLoop (text.length + 1) text (findFrom (· = '?') text 0) = some (sanitizeQueryString text) ∧
    ('?' ∉ text → sanitizeQueryString text = text) ∧
    (IsQuery q → (HidesQuery a q b ↔ ∀ c ∈ q, c ∈ allowedOpaque)) :=
  ⟨sanitizeLoop_ends text, fun h => sanitizeFrom_of_no_query h, fun hq => hidesQuery_iff hq⟩

theorem IsQuery.of_chars {q : Text} (h : ∀ c ∈ q, c ∈ queryChars) : IsQuery q := by
  induction q with
  | nil => exact .nil
  | cons c q ih => exact .char (h c (by simp)) (ih fun d hd => h d (by simp [hd]))

/-- A slash ends the redaction: the token that comes after it stays. -/
theorem queries_not_all_hidden :
    ¬∀ a q q' b, IsQuery q → IsQuery q' → (∀ c ∈ b.head?, c ∈ [' ', '"', '\'', '\n']) →
      sanitizeQueryString (a ++ '?' :: (q ++ b)) = sanitizeQueryString (a ++ '?' :: (q' ++ b)) := by
  intro h
  have heq := h "https://h/f".toList "path=/a&authz=S".toList "path=/a&authz=T".toList []
    (.of_chars (List.forall_mem_iff_getElem.mpr (by decide +kernel)))
    (.of_chars (List.forall_mem_iff_getElem.mpr (by decide +kernel))) (by simp)
  exact absurd heq (by decide +kernel)

end Fts3.UrlCopy
