import Fts3.Common.Text
import Mathlib.Data.Char
import Mathlib.Data.List.Lex
import Mathlib.Data.List.Sort
import Mathlib.Data.Prod.Lex

/-!
# The upgrade of the schema

`get_upgrade_scripts` of `fts-database-upgrade.py`. The order of `parse_version` is a parameter: `none` where it raises.
-/

namespace Fts3.MySql

variable {V : Type} (parseVersion : Text → Option V)

/-! ## The script -/

/-- `os.path.join`. -/
def osPathJoin (path name : Text) : Text :=
  if name.head? = some '/' then name
  else if path = [] ∨ path.getLast? = some '/' then path ++ name
  else path ++ '/' :: name

/-- `sql.endswith('.sql') and sql.startswith('fts-diff')`. -/
def isDiffFile (sql : Text) : Bool :=
  ".sql".toList.isSuffixOf sql && "fts-diff".toList.isPrefixOf sql

/-- `parse_version(sql[:-4].split('-')[2])`. -/
def fileVersion (sql : Text) : Option V :=
  ((sql.take (sql.length - 4)).splitOn '-')[2]?.bind parseVersion

/-- The loop over the names of the directory. -/
def findUpgrades [LinearOrder V] (sqlLocation : Text) (currentVersion : V) (upgrades : List (V × Text)) :
    List Text → Option (List (V × Text))
  | [] => some upgrades
  | sql :: names =>
      if isDiffFile sql then
        match fileVersion parseVersion sql with
        | none => none
        | some version =>
            if currentVersion < version then
              findUpgrades sqlLocation currentVersion (upgrades ++ [(version, osPathJoin sqlLocation sql)]) names
            else findUpgrades sqlLocation currentVersion upgrades names
      else findUpgrades sqlLocation currentVersion upgrades names

/-- `sorted(upgrades)`: by version, and by path among equal versions. -/
def sortUpgrades [LinearOrder V] (upgrades : List (V × Text)) : List (V × Text) :=
  upgrades.insertionSort fun (u u' : V × Text) => toLex u ≤ toLex u'

def getUpgradeScripts [LinearOrder V] (currentVersion : V) (sqlLocation : Text) (listdir : List Text) :
    Option (List Text) :=
  (findUpgrades parseVersion sqlLocation currentVersion [] listdir).map fun upgrades =>
    (sortUpgrades upgrades).map (·.2)

/-! ## The plan -/

/-- `fts-diff-<version>[-suffix].sql`. -/
def IsDiff (version : V) (name : Text) : Prop :=
  ∃ digits suffix, name = "fts-diff-".toList ++ (digits ++ suffix) ++ ".sql".toList ∧
    '-' ∉ digits ∧ (suffix = [] ∨ suffix.head? = some '-') ∧ parseVersion digits = some version

/-- The names of a directory. -/
structure Listing where
  names : List Text
  nodup : names.Nodup

/-- What the scripts of an upgrade have to be, each with the version it upgrades to. -/
structure UpgradePlan [LinearOrder V] (listing : Listing) (sqlLocation : Text) (currentVersion : V)
    (plan : List (V × Text)) : Prop where
  increasing : (plan.map (·.1)).Pairwise (· < ·)
  diffs : ∀ step ∈ plan, currentVersion < step.1 ∧
    ∃ name ∈ listing.names, IsDiff parseVersion step.1 name ∧ step.2 = osPathJoin sqlLocation name
  complete : ∀ name ∈ listing.names, ∀ version, IsDiff parseVersion version name → currentVersion < version →
    ∃ path, (version, path) ∈ plan

/-- The names from which the script makes a plan. -/
structure Upgradable [LinearOrder V] (listing : Listing) (currentVersion : V) : Prop where
  parsed : ∀ name ∈ listing.names, isDiffFile name → fileVersion parseVersion name ≠ none
  named : ∀ name ∈ listing.names, isDiffFile name → ∀ version, fileVersion parseVersion name = some version →
    currentVersion < version → IsDiff parseVersion version name
  single : ∀ name ∈ listing.names, ∀ name' ∈ listing.names, isDiffFile name → isDiffFile name' →
    ∀ version, fileVersion parseVersion name = some version → fileVersion parseVersion name' = some version →
      currentVersion < version → name = name'

/-! ## The names of diffs -/

section names

variable {parseVersion} {version : V} {name name' sqlLocation : Text}

theorem isDiffFile_iff :
    isDiffFile name ↔ ".sql".toList <:+ name ∧ "fts-diff".toList <+: name := by
  simp [isDiffFile]

theorem IsDiff.isDiffFile (h : IsDiff parseVersion version name) : isDiffFile name := by
  obtain ⟨digits, suffix, rfl, -⟩ := h
  rw [isDiffFile_iff]
  constructor
  · exact List.suffix_append _ _
  · rw [List.append_assoc]
    exact List.IsPrefix.trans ⟨['-'], rfl⟩ (List.prefix_append "fts-diff-".toList _)

/-- The third field of such a name is its version. -/
theorem IsDiff.fileVersion_eq (h : IsDiff parseVersion version name) : fileVersion parseVersion name = some version := by
  obtain ⟨digits, suffix, rfl, hdigits, hsuffix, hparse⟩ := h
  have htake : ∀ text : Text, (text ++ ".sql".toList).take ((text ++ ".sql".toList).length - 4) = text := by
    intro text
    simp
  have hfields : ∀ text : Text, ("fts-diff-".toList ++ text).splitOn '-' =
      "fts".toList :: "diff".toList :: text.splitOn '-' := by
    intro text
    have hname : "fts-diff-".toList ++ text = "fts".toList ++ '-' :: ("diff".toList ++ '-' :: text) := rfl
    rw [hname, List.splitOn_append_cons_self_of_not_mem (by decide), List.splitOn_append_cons_self_of_not_mem (by decide)]
  have hfirst : ((digits ++ suffix).splitOn '-')[0]? = some digits := by
    rcases hsuffix with rfl | hsuffix
    · rw [List.append_nil, List.splitOn_eq_singleton hdigits]
      rfl
    · cases suffix with
      | nil => simp at hsuffix
      | cons c rest =>
          obtain rfl : c = '-' := by simpa using hsuffix
          rw [List.splitOn_append_cons_self_of_not_mem hdigits]
          rfl
  rw [fileVersion, htake, hfields]
  simpa [hfirst] using hparse

theorem osPathJoin_injective (hname : isDiffFile name) (hname' : isDiffFile name')
    (h : osPathJoin sqlLocation name = osPathJoin sqlLocation name') : name = name' := by
  have hhead : ∀ {text : Text}, isDiffFile text → text.head? ≠ some '/' := by
    intro text htext
    obtain ⟨rest, rfl⟩ := (isDiffFile_iff.mp htext).2
    simp
  rw [osPathJoin, osPathJoin, if_neg (hhead hname), if_neg (hhead hname')] at h
  split at h
  · exact List.append_cancel_left h
  · simpa using h

end names

/-- Two lists of pairs with the same second components, where such a component tells the pair. -/
theorem eq_of_map_snd {plan plan' : List (V × Text)} (h : plan.map (·.2) = plan'.map (·.2))
    (hpath : ∀ step ∈ plan, ∀ step' ∈ plan', step.2 = step'.2 → step = step') : plan = plan' := by
  induction plan generalizing plan' with
  | nil =>
      cases plan' with
      | nil => rfl
      | cons step' plan' => simp at h
  | cons step plan ih =>
      cases plan' with
      | nil => simp at h
      | cons step' plan' =>
          rw [List.map_cons, List.map_cons, List.cons.injEq] at h
          rw [hpath step List.mem_cons_self step' List.mem_cons_self h.1]
          rw [ih h.2 fun s hs s' hs' => hpath s (List.mem_cons_of_mem _ hs) s' (List.mem_cons_of_mem _ hs')]

/-! ## What the loop finds -/

section loop

variable [LinearOrder V] {parseVersion} {currentVersion version : V} {name sqlLocation : Text} {names : List Text}
  {upgrades found : List (V × Text)} {step step' : V × Text}

variable (parseVersion) in
/-- The entry of one name, where it is to run. -/
def upgrade? (sqlLocation : Text) (currentVersion : V) (sql : Text) : Option (V × Text) :=
  if isDiffFile sql then
    (fileVersion parseVersion sql).bind fun version =>
      if currentVersion < version then some (version, osPathJoin sqlLocation sql) else none
  else none

theorem upgrade?_eq_some : upgrade? parseVersion sqlLocation currentVersion name = some step ↔
    isDiffFile name ∧ fileVersion parseVersion name = some step.1 ∧ currentVersion < step.1 ∧
      step.2 = osPathJoin sqlLocation name := by
  unfold upgrade?
  cases hdiff : isDiffFile name with
  | false => simp
  | true =>
      cases hversion : fileVersion parseVersion name with
      | none => simp
      | some version =>
          obtain ⟨version', path⟩ := step
          by_cases hlt : currentVersion < version
          · simp only [hlt, if_true, Option.bind_some, Option.some.injEq, Prod.mk.injEq, true_and]
            constructor
            · rintro ⟨rfl, rfl⟩
              exact ⟨rfl, hlt, rfl⟩
            · rintro ⟨rfl, -, rfl⟩
              exact ⟨rfl, rfl⟩
          · simp only [hlt, if_false, if_true, Option.bind_some, reduceCtorEq, Option.some.injEq, true_and, false_iff]
            rintro ⟨rfl, hlt', -⟩
            exact hlt hlt'

theorem findUpgrades_eq_some : findUpgrades parseVersion sqlLocation currentVersion upgrades names = some found ↔
    (∀ name ∈ names, isDiffFile name → fileVersion parseVersion name ≠ none) ∧
      found = upgrades ++ names.filterMap (upgrade? parseVersion sqlLocation currentVersion) := by
  induction names generalizing upgrades with
  | nil =>
      simp only [findUpgrades, Option.some.injEq, List.not_mem_nil, false_implies, implies_true, List.filterMap_nil,
        List.append_nil, true_and]
      exact eq_comm
  | cons sql names ih =>
      rw [findUpgrades, List.forall_mem_cons]
      cases hdiff : isDiffFile sql with
      | false => simp [ih, upgrade?, hdiff]
      | true =>
          cases hversion : fileVersion parseVersion sql with
          | none => simp
          | some version =>
              by_cases hlt : currentVersion < version
              · simp [ih, upgrade?, hdiff, hversion, hlt]
              · simp [ih, upgrade?, hdiff, hversion, hlt]

theorem mem_sortUpgrades : step ∈ sortUpgrades upgrades ↔ step ∈ upgrades :=
  List.mem_insertionSort _

theorem sortUpgrades_sorted : (sortUpgrades upgrades).Pairwise fun u u' => toLex u ≤ toLex u' :=
  List.pairwise_insertionSort _ _

end loop

/-! ## The plan is made -/

section plan

variable [LinearOrder V] {parseVersion} {listing : Listing} {currentVersion : V} {sqlLocation : Text}

variable (parseVersion) in
/-- The entries in the order in which the script gives them. -/
def upgradesOf (listing : Listing) (sqlLocation : Text) (currentVersion : V) : List (V × Text) :=
  sortUpgrades (listing.names.filterMap (upgrade? parseVersion sqlLocation currentVersion))

theorem mem_upgradesOf {step : V × Text} : step ∈ upgradesOf parseVersion listing sqlLocation currentVersion ↔
    ∃ name ∈ listing.names, isDiffFile name ∧ fileVersion parseVersion name = some step.1 ∧ currentVersion < step.1 ∧
      step.2 = osPathJoin sqlLocation name := by
  simp only [upgradesOf, mem_sortUpgrades, List.mem_filterMap, upgrade?_eq_some]

theorem getUpgradeScripts_eq_some {scripts : List Text} :
    getUpgradeScripts parseVersion currentVersion sqlLocation listing.names = some scripts ↔
      (∀ name ∈ listing.names, isDiffFile name → fileVersion parseVersion name ≠ none) ∧
        (upgradesOf parseVersion listing sqlLocation currentVersion).map (·.2) = scripts := by
  rw [getUpgradeScripts, Option.map_eq_some_iff]
  simp only [findUpgrades_eq_some, List.nil_append]
  constructor
  · rintro ⟨_, ⟨hparsed, rfl⟩, hscripts⟩
    exact ⟨hparsed, hscripts⟩
  · rintro ⟨hparsed, hscripts⟩
    exact ⟨_, ⟨hparsed, rfl⟩, hscripts⟩

/-- No entry occurs twice, since no name does. -/
theorem upgradesOf_nodup : (upgradesOf parseVersion listing sqlLocation currentVersion).Nodup := by
  have hnodup : (listing.names.filterMap (upgrade? parseVersion sqlLocation currentVersion)).Nodup := by
    apply listing.nodup.filterMap
    intro name name' step hname hname'
    obtain ⟨hdiff, -, -, hpath⟩ := upgrade?_eq_some.mp hname
    obtain ⟨hdiff', -, -, hpath'⟩ := upgrade?_eq_some.mp hname'
    exact osPathJoin_injective hdiff hdiff' (hpath.symm.trans hpath')
  exact (List.perm_insertionSort _ _).nodup_iff.mpr hnodup

theorem Upgradable.plan (h : Upgradable parseVersion listing currentVersion) :
    UpgradePlan parseVersion listing sqlLocation currentVersion
      (upgradesOf parseVersion listing sqlLocation currentVersion) := by
  constructor
  · rw [List.pairwise_map]
    have hne : (upgradesOf parseVersion listing sqlLocation currentVersion).Pairwise (· ≠ ·) := upgradesOf_nodup
    apply (sortUpgrades_sorted.and hne).imp_of_mem
    rintro ⟨version, path⟩ ⟨version', path'⟩ hstep hstep' ⟨hle, hne⟩
    rcases (Prod.Lex.toLex_le_toLex.mp hle) with hlt | ⟨heq, -⟩
    · exact hlt
    · -- two entries of one version come from one name
      obtain ⟨name, hname, hdiff, hversion, hlt, hpath⟩ := mem_upgradesOf.mp hstep
      obtain ⟨name', hname', hdiff', hversion', -, hpath'⟩ := mem_upgradesOf.mp hstep'
      dsimp only at heq hversion hversion' hlt hpath hpath'
      subst heq
      have := h.single name hname name' hname' hdiff hdiff' version hversion hversion' hlt
      subst this
      exact absurd (by rw [hpath, hpath']) hne
  · rintro step hstep
    obtain ⟨name, hname, hdiff, hversion, hlt, hpath⟩ := mem_upgradesOf.mp hstep
    exact ⟨hlt, name, hname, h.named name hname hdiff _ hversion hlt, hpath⟩
  · intro name hname version hdiff hlt
    exact ⟨_, mem_upgradesOf.mpr ⟨name, hname, hdiff.isDiffFile, hdiff.fileVersion_eq, hlt, rfl⟩⟩

/-- A plan with the paths of the script is what the script has found. -/
theorem UpgradePlan.eq_upgradesOf {plan : List (V × Text)}
    (h : UpgradePlan parseVersion listing sqlLocation currentVersion plan)
    (hpaths : (upgradesOf parseVersion listing sqlLocation currentVersion).map (·.2) = plan.map (·.2)) :
    plan = upgradesOf parseVersion listing sqlLocation currentVersion := by
  apply eq_of_map_snd hpaths.symm
  intro step hstep step' hstep' hpath
  obtain ⟨-, name, -, hdiff, hname⟩ := h.diffs step hstep
  obtain ⟨name', -, hdiff', hversion', -, hname'⟩ := mem_upgradesOf.mp hstep'
  have hnames : name = name' :=
    osPathJoin_injective hdiff.isDiffFile hdiff' (hname.symm.trans (hpath.trans hname'))
  subst hnames
  have hversions : step.1 = step'.1 := Option.some.inj (hdiff.fileVersion_eq.symm.trans hversion')
  exact Prod.ext hversions hpath

/-- Where the script gives a plan, the names are as they should be. -/
theorem UpgradePlan.upgradable {plan : List (V × Text)}
    (hscripts : getUpgradeScripts parseVersion currentVersion sqlLocation listing.names = some (plan.map (·.2)))
    (h : UpgradePlan parseVersion listing sqlLocation currentVersion plan) :
    Upgradable parseVersion listing currentVersion := by
  obtain ⟨hparsed, hpaths⟩ := getUpgradeScripts_eq_some.mp hscripts
  obtain rfl := h.eq_upgradesOf hpaths
  constructor
  · exact hparsed
  · intro name hname hdiff version hversion hlt
    obtain ⟨-, name', -, hdiff', hpath⟩ := h.diffs (version, osPathJoin sqlLocation name)
      (mem_upgradesOf.mpr ⟨name, hname, hdiff, hversion, hlt, rfl⟩)
    rw [osPathJoin_injective hdiff hdiff'.isDiffFile hpath]
    exact hdiff'
  · intro name hname name' hname' hdiff hdiff' version hversion hversion' hlt
    have hstep : (version, osPathJoin sqlLocation name) ∈ upgradesOf parseVersion listing sqlLocation currentVersion :=
      mem_upgradesOf.mpr ⟨name, hname, hdiff, hversion, hlt, rfl⟩
    have hstep' : (version, osPathJoin sqlLocation name') ∈ upgradesOf parseVersion listing sqlLocation currentVersion :=
      mem_upgradesOf.mpr ⟨name', hname', hdiff', hversion', hlt, rfl⟩
    -- a version has one place in the plan
    have hinj := List.inj_on_of_nodup_map (h.increasing.imp ne_of_lt) hstep hstep' rfl
    exact osPathJoin_injective hdiff hdiff' (Prod.ext_iff.mp hinj).2

/-- The script gives a plan exactly for the directories whose diffs have well formed names, each with a version of its
own. -/
theorem upgrade_plan_iff (listing : Listing) (sqlLocation : Text) (currentVersion : V) :
    (∃ plan, getUpgradeScripts parseVersion currentVersion sqlLocation listing.names = some (plan.map (·.2)) ∧
      UpgradePlan parseVersion listing sqlLocation currentVersion plan) ↔
      Upgradable parseVersion listing currentVersion := by
  constructor
  · rintro ⟨plan, hscripts, hplan⟩
    exact hplan.upgradable hscripts
  · intro h
    exact ⟨_, getUpgradeScripts_eq_some.mpr ⟨h.parsed, rfl⟩, h.plan⟩

end plan

/-! ## The diffs of version 3.0.0 -/

/-- Release numbers, of which zeros at the end do not count. -/
def parseRelease (text : Text) : Option (List Nat) :=
  ((text.splitOn '.').mapM (Text.digitsValue 64)).map fun numbers => (numbers.reverse.dropWhile (· = 0)).reverse

/-- One of the two changes the schema for the unfinished jobs only. -/
def diffs3 : Listing where
  names := ["fts-schema-2.0.0.sql".toList, "fts-diff-3.0.0-partial.sql".toList, "fts-diff-3.0.0.sql".toList]
  nodup := by decide

theorem getUpgradeScripts_diffs3 :
    getUpgradeScripts parseRelease [2, 0, 1] "/usr/share/fts-mysql".toList diffs3.names =
        some ["/usr/share/fts-mysql/fts-diff-3.0.0-partial.sql".toList, "/usr/share/fts-mysql/fts-diff-3.0.0.sql".toList] ∧
      ¬ ∃ plan, getUpgradeScripts parseRelease [2, 0, 1] "/usr/share/fts-mysql".toList diffs3.names =
          some (plan.map (·.2)) ∧ UpgradePlan parseRelease diffs3 "/usr/share/fts-mysql".toList [2, 0, 1] plan := by
  constructor
  · decide
  · rintro ⟨plan, hscripts, hplan⟩
    have hsame := (hplan.upgradable hscripts).single "fts-diff-3.0.0-partial.sql".toList (by decide)
      "fts-diff-3.0.0.sql".toList (by decide) (by decide) (by decide) [3] (by decide) (by decide) (by decide)
    exact absurd hsame (by decide)

end Fts3.MySql
