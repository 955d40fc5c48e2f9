import Fts3.Common.Text

/-!
# URIs
-/

namespace Fts3

/-- A URI, split into its parts. -/
structure Uri where
  fullUri : Text := []
  queryString : Text := []
  path : Text := []
  protocol : Text := []
  host : Text := []
  port : UInt32 := 0
  deriving Repr, DecidableEq, Inhabited

namespace Uri

/-- What stands before the last `c`, and what stands after it. -/
def splitLast (c : Char) (text : Text) : Option (Text × Text) :=
  if c ∈ text then
    let after := (text.reverse.takeWhile (· ≠ c)).reverse
    some (text.take (text.length - after.length - 1), after)
  else none

/-- The port is put into the host, so it is taken out of it. A colon inside the brackets of an IPv6 address does not
start one. -/
def extractPort (u : Uri) : Uri :=
  match splitLast ':' u.host with
  | none => u
  | some (before, after) =>
      if ']' ∈ after then u else { u with host := before, port := UInt32.ofInt (Text.atoi after) }

/-- The regular expression of RFC 2396, appendix B. Each of its parts takes as much as it can. -/
def parse (uri : Text) : Uri :=
  let scheme := uri.takeWhile (· ∉ [':', '/', '?', '#'])
  let rest := uri.drop scheme.length
  let (protocol, rest) := if scheme ≠ [] ∧ rest.head? = some ':' then (scheme, rest.tail) else ([], uri)
  let (host, rest) :=
    if rest.take 2 = ['/', '/'] then
      let host := (rest.drop 2).takeWhile (· ∉ ['/', '?', '#'])
      (host, rest.drop (2 + host.length))
    else ([], rest)
  let path := rest.takeWhile (· ∉ ['?', '#'])
  let rest := rest.drop path.length
  let queryString := if rest.head? = some '?' then rest.tail.takeWhile (· ≠ '#') else []
  extractPort { fullUri := uri, queryString, path, protocol, host }

def getSeName (u : Uri) : Text :=
  u.protocol ++ "://".toList ++ u.host

example : parse "https://[::1]:8443/data?a=b#c".toList =
    { fullUri := "https://[::1]:8443/data?a=b#c".toList, queryString := "a=b".toList, path := "/data".toList,
      protocol := "https".toList, host := "[::1]".toList, port := 8443 } := by
  decide

theorem fullUri_extractPort (u : Uri) : (extractPort u).fullUri = u.fullUri := by
  unfold extractPort
  split
  · rfl
  · split <;> rfl

@[simp] theorem fullUri_parse (uri : Text) : (parse uri).fullUri = uri :=
  fullUri_extractPort _

/-! ## Composition -/

theorem splitLast_append {c : Char} {before after : Text} (h : c ∉ after) :
    splitLast c (before ++ c :: after) = some (before, after) := by
  have hafter : ((before ++ c :: after).reverse.takeWhile (· ≠ c)).reverse = after := by
    rw [List.reverse_append, List.reverse_cons, List.append_assoc, Text.takeWhile_until, List.reverse_reverse]
    · intro d hd
      have hne : d ≠ c := fun heq => h (heq ▸ List.mem_reverse.mp hd)
      simpa using hne
    · simp
  have hlength : (before ++ c :: after).length - after.length - 1 = before.length := by
    rw [List.length_append, List.length_cons]
    omega
  simp only [splitLast, hafter, hlength, List.take_left]
  exact if_pos (by simp)

theorem splitLast_of_not_mem {c : Char} {text : Text} (h : c ∉ text) : splitLast c text = none :=
  if_neg h

/-- A host name has no delimiter; an IPv6 address is written in brackets. -/
inductive IsHost : Text → Prop
  | name {host : Text} (hne : host ≠ []) (hdelimiters : ∀ c ∈ host, c ∉ ['/', '?', '#', ':', '@']) : IsHost host
  | ipv6 {address : Text} (hdelimiters : ∀ c ∈ address, c ∉ ['/', '?', '#']) : IsHost ('[' :: address ++ [']'])

/-- The parts that a URI is composed of. -/
structure Parts where
  scheme : Text
  host : Text
  port : Option Nat := none
  path : Text := []
  query : Option Text := none
  fragment : Option Text := none
  scheme_ne_nil : scheme ≠ []
  scheme_delimiters : ∀ c ∈ scheme, c ∉ [':', '/', '?', '#']
  isHost : IsHost host
  port_range : ∀ n ∈ port, 1 ≤ n ∧ n ≤ 65535
  path_head : ∀ c ∈ path.head?, c = '/'
  path_delimiters : ∀ c ∈ path, c ∉ ['?', '#']
  query_delimiters : ∀ q ∈ query, '#' ∉ q

namespace Parts

def authority (p : Parts) : Text :=
  p.host ++ p.port.elim [] fun n => ':' :: Text.printNat n

/-- `[?query][#fragment]` -/
def suffix (p : Parts) : Text :=
  p.query.elim [] ('?' :: ·) ++ p.fragment.elim [] ('#' :: ·)

def compose (p : Parts) : Text :=
  p.scheme ++ ':' :: '/' :: '/' :: (p.authority ++ (p.path ++ p.suffix))

/-- The storage element alone. -/
def storage (p : Parts) : Parts :=
  { p with
    port := none, path := [], query := none, fragment := none
    port_range := by simp, path_head := by simp, path_delimiters := by simp, query_delimiters := by simp }

end Parts

theorem IsHost.delimiters {host : Text} (h : IsHost host) : ∀ c ∈ host, c ∉ ['/', '?', '#'] := by
  cases h with
  | name hne hdelimiters =>
      intro c hc hmem
      exact hdelimiters c hc (List.mem_of_mem_take (i := 3) hmem)
  | ipv6 hdelimiters =>
      intro c hc
      simp only [List.cons_append, List.mem_cons, List.mem_append, List.not_mem_nil, or_false] at hc
      rcases hc with rfl | hc | rfl
      · decide
      · exact hdelimiters c hc
      · decide

/-- A host alone has no port, also when it is an IPv6 address with its colons. -/
theorem extractPort_host {u : Uri} (h : IsHost u.host) : extractPort u = u := by
  unfold extractPort
  cases hsplit : splitLast ':' u.host with
  | none => rfl
  | some parts =>
      have hmem : ':' ∈ u.host := by
        by_contra hmem
        simp [splitLast_of_not_mem hmem] at hsplit
      generalize u.host = host at h hsplit hmem
      cases h with
      | name hne hdelimiters => exact absurd (by simp) (hdelimiters ':' hmem)
      | ipv6 hdelimiters =>
          simp only [splitLast, hmem, if_true, Option.some.injEq] at hsplit
          have hclose : ']' ∈ parts.2 := by
            rw [← hsplit]
            simp
          simp [hclose]

theorem extractPort_port {u : Uri} {host : Text} {n : Nat} (hn : n ≤ 65535)
    (hu : u.host = host ++ ':' :: Text.printNat n) :
    extractPort u = { u with host := host, port := UInt32.ofNat n } := by
  have hbracket : ']' ∉ Text.printNat n := Text.not_mem_printNat (by decide)
  have hcolon : ':' ∉ Text.printNat n := Text.not_mem_printNat (by decide)
  have hport : UInt32.ofInt (Text.atoi (Text.printNat n)) = UInt32.ofNat n := by
    have hmod : ((n : Int) % 2 ^ 32).toNat = n := by omega
    rw [Text.atoi_printNat (by omega), UInt32.ofInt, hmod]
  simp only [extractPort, hu, splitLast_append hcolon, hbracket, if_false, hport]

namespace Parts

variable (p : Parts)

theorem authority_delimiters : ∀ c ∈ p.authority, c ∉ ['/', '?', '#'] := by
  intro c hc
  rcases List.mem_append.mp hc with hc | hc
  · exact p.isHost.delimiters c hc
  · cases hport : p.port with
    | none => simp [hport] at hc
    | some n =>
        simp only [hport, Option.elim_some, List.mem_cons] at hc
        rcases hc with rfl | hc
        · decide
        · have hdelimiters : ∀ c ∈ ['/', '?', '#'], c.isDigit = false := by simp
          intro hmem
          exact absurd (Text.isDigit_of_mem_printNat hc) (by simp [hdelimiters c hmem])

theorem suffix_head : ∀ c ∈ p.suffix.head?, c ∈ ['?', '#'] := by
  unfold suffix
  cases p.query with
  | some q => simp
  | none =>
      cases p.fragment with
      | some f => simp
      | none => simp

theorem path_suffix_head : ∀ c ∈ (p.path ++ p.suffix).head?, c ∈ ['/', '?', '#'] := by
  cases hpath : p.path with
  | nil =>
      intro c hc
      exact List.mem_cons_of_mem _ (p.suffix_head c hc)
  | cons d path =>
      have hd : d = '/' := p.path_head d (by simp [hpath])
      simp [hd]

/-- The three delimiters after the scheme are found where they were put. -/
theorem parse_compose_eq : parse p.compose = extractPort
    { fullUri := p.compose, protocol := p.scheme, host := p.authority, path := p.path
      queryString := p.query.getD [] } := by
  have hscheme : p.compose.takeWhile (· ∉ [':', '/', '?', '#']) = p.scheme :=
    Text.takeWhile_until (fun c hc => by simpa using p.scheme_delimiters c hc) (by simp)
  have hrest : p.compose.drop p.scheme.length = ':' :: '/' :: '/' :: (p.authority ++ (p.path ++ p.suffix)) :=
    List.drop_left
  have hauthority : (p.authority ++ (p.path ++ p.suffix)).takeWhile (· ∉ ['/', '?', '#']) = p.authority :=
    Text.takeWhile_until (fun c hc => by simpa using p.authority_delimiters c hc)
      (fun c hc => decide_eq_false (not_not.mpr (p.path_suffix_head c hc)))
  have hpath : (p.path ++ p.suffix).takeWhile (· ∉ ['?', '#']) = p.path :=
    Text.takeWhile_until (fun c hc => by simpa using p.path_delimiters c hc)
      (fun c hc => decide_eq_false (not_not.mpr (p.suffix_head c hc)))
  have hquery : (if p.suffix.head? = some '?' then p.suffix.tail.takeWhile (· ≠ '#') else []) = p.query.getD [] := by
    unfold suffix
    cases hq : p.query with
    | none => cases p.fragment <;> simp
    | some q =>
        have hdelimiter : '#' ∉ q := p.query_delimiters q hq
        simp only [Option.elim_some, List.cons_append, List.head?_cons, if_true, List.tail_cons, Option.getD_some]
        refine Text.takeWhile_until (fun c hc => ?_) ?_
        · have hne : c ≠ '#' := fun heq => hdelimiter (heq ▸ hc)
          simpa using hne
        · cases p.fragment <;> simp
  have hafter : ('/' :: '/' :: (p.authority ++ (p.path ++ p.suffix))).drop (2 + p.authority.length) =
      p.path ++ p.suffix := by
    rw [Nat.add_comm, List.drop_succ_cons, List.drop_succ_cons, List.drop_left]
  have hslashes (rest : Text) : ('/' :: '/' :: rest).take 2 = ['/', '/'] := rfl
  simp only [parse, hscheme, hrest, p.scheme_ne_nil, ne_eq, not_false_eq_true, true_and, List.head?_cons, if_true,
    List.tail_cons, hslashes, List.drop_succ_cons, List.drop_zero, hauthority]
  rw [hafter, hpath, List.drop_left]
  exact congrArg extractPort (by rw [hquery])

end Parts

theorem parse_compose (p : Parts) :
    parse p.compose = { fullUri := p.compose, protocol := p.scheme, host := p.host, path := p.path
                        queryString := p.query.getD [], port := UInt32.ofNat (p.port.getD 0) } := by
  rw [p.parse_compose_eq]
  cases hport : p.port with
  | none =>
      have hauthority : p.authority = p.host := by simp [Parts.authority, hport]
      rw [hauthority]
      exact extractPort_host p.isHost
  | some n =>
      have hauthority : p.authority = p.host ++ ':' :: Text.printNat n := by simp [Parts.authority, hport]
      exact extractPort_port (p.port_range n hport).2 hauthority

theorem getSeName_parse_compose (p : Parts) : getSeName (parse p.compose) = p.storage.compose := by
  rw [parse_compose, getSeName]
  simp [Parts.storage, Parts.compose, Parts.authority, Parts.suffix]

/-- `Uri::parse` gives back the parts that a URI was composed of, and the name of its storage element is read as
itself. -/
theorem parse_inverts_compose (p : Parts) :
    (parse p.compose).protocol = p.scheme ∧ (parse p.compose).host = p.host ∧
    (parse p.compose).port.toNat = p.port.getD 0 ∧ (parse p.compose).path = p.path ∧
    (parse p.compose).queryString = p.query.getD [] ∧
    getSeName (parse p.compose) = p.scheme ++ "://".toList ++ p.host ∧
    getSeName (parse (getSeName (parse p.compose))) = getSeName (parse p.compose) := by
  have hport : p.port.getD 0 ≤ 65535 := by
    cases hp : p.port with
    | none => simp
    | some n => exact (p.port_range n hp).2
  refine ⟨by rw [parse_compose], by rw [parse_compose], ?_, by rw [parse_compose], by rw [parse_compose],
    by rw [parse_compose, getSeName], ?_⟩
  · rw [parse_compose]
    exact UInt32.toNat_ofNat_of_lt' (by rw [UInt32.size]; omega)
  · rw [getSeName_parse_compose, getSeName_parse_compose]
    rfl

/-- An address in brackets, with a port, a path and a query. -/
def bracketed : Parts where
  scheme := "root".toList
  host := "[2001:db8::1]".toList
  port := some 1094
  path := "/data/f".toList
  query := some "authz=a:b/c".toList
  scheme_ne_nil := by decide
  scheme_delimiters := by simp
  isHost := .ipv6 (by simp : ∀ c ∈ "2001:db8::1".toList, c ∉ ['/', '?', '#'])
  port_range := by simp
  path_head := by simp
  path_delimiters := by simp
  query_delimiters := by decide

theorem parse_inverts_compose_bracketed :
    bracketed.compose = "root://[2001:db8::1]:1094/data/f?authz=a:b/c".toList ∧
    (parse bracketed.compose).host = "[2001:db8::1]".toList ∧ (parse bracketed.compose).port.toNat = 1094 ∧
    (parse bracketed.compose).path = "/data/f".toList ∧
    (parse bracketed.compose).queryString = "authz=a:b/c".toList ∧
    getSeName (parse bracketed.compose) = "root://[2001:db8::1]".toList := by
  obtain ⟨-, hhost, hport, hpath, hquery, hname, -⟩ := parse_inverts_compose bracketed
  exact ⟨by decide, hhost, hport, hpath, hquery, hname⟩

end Uri

/-- What follows the first dot, with it. -/
def domain (host : String) : Text :=
  host.toList.dropWhile (· ≠ '.')

def isLanTransfer (source dest : String) : Bool :=
  source = dest || domain source = domain dest

end Fts3
