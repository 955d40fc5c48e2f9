import Mathlib.Order.Defs.LinearOrder
import Mathlib.Data.List.Lex
import Mathlib.Tactic.Tauto
import Fts3.Common.Text

/-!
# JSON values

What a library keeps of a JSON text, with the access to the members of an object.
-/

namespace Fts3

mutual

inductive Json
  | null
  | boolean (b : Bool)
  | integer (i : Int)
  | real (digits : Text)
  | string (s : Text)
  | array (elements : Json.Elements)
  | object (members : Json.Members)

inductive Json.Elements
  | nil
  | cons (v : Json) (elements : Json.Elements)

/-- The members by their keys, in order. -/
inductive Json.Members
  | nil
  | cons (key : Text) (v : Json) (members : Json.Members)

end

namespace Json

/-! ## Members -/

namespace Members

def get : Members → Text → Option Json
  | nil, _ => none
  | cons key v members, k => if key = k then some v else members.get k

def insert (k : Text) (x : Json) : Members → Members
  | nil => cons k x nil
  | cons key v members =>
      if key = k then cons k x members
      else if k < key then cons k x (cons key v members)
      else cons key v (members.insert k x)

theorem get_insert (k : Text) (x : Json) (k' : Text) : (members : Members) →
    (members.insert k x).get k' = if k = k' then some x else members.get k'
  | nil => rfl
  | cons key v members => by
      have ih := get_insert k x k' members
      unfold insert
      by_cases hkey : key = k
      · subst hkey
        by_cases hk' : key = k' <;> simp [get, hk']
      · by_cases hlt : k < key
        · simp [hkey, hlt, get]
        · by_cases hk' : key = k'
          · subst hk'
            simp [hkey, hlt, get, Ne.symm hkey]
          · simp [hkey, hlt, get, hk', ih]

def erase (k : Text) : Members → Members
  | nil => nil
  | cons key v members => if key = k then members.erase k else cons key v (members.erase k)

theorem get_erase {k k' : Text} (h : k ≠ k') : (members : Members) → (members.erase k).get k' = members.get k'
  | nil => rfl
  | cons key v members => by
      have ih := get_erase h members
      unfold erase
      split
      · rename_i hkey
        rw [ih, get, if_neg (hkey ▸ h)]
      · rw [get, get, ih]

end Members

def isObject : Json → Bool
  | object _ => true
  | _ => false

def get : Json → Text → Option Json
  | object members, k => members.get k
  | _, _ => none

/-- The value without a member. -/
def erase : Json → Text → Json
  | object members, k => object (members.erase k)
  | v, _ => v

/-- The assignment to a member, which replaces the one with the key. Only an object has members, and a null value becomes
one. -/
def set : Json → Text → Json → Option Json
  | null, k, x => some (object (Members.nil.insert k x))
  | object members, k, x => some (object ((members.erase k).insert k x))
  | _, _, _ => none

theorem isObject_erase (v : Json) (k : Text) : (v.erase k).isObject = v.isObject := by
  cases v <;> rfl

theorem get_erase (v : Json) {k k' : Text} (h : k ≠ k') : (v.erase k).get k' = v.get k' := by
  cases v with
  | object members => exact members.get_erase h
  | _ => rfl

theorem set_cases {v w x : Json} {k : Text} (h : v.set k x = some w) :
    ∃ members, (v = null ∧ members = .nil ∨ v = object members) ∧ w = object ((members.erase k).insert k x) := by
  cases v with
  | null => exact ⟨.nil, .inl ⟨rfl, rfl⟩, (Option.some.inj h).symm⟩
  | object members => exact ⟨members, .inr rfl, (Option.some.inj h).symm⟩
  | boolean b => cases h
  | integer i => cases h
  | real digits => cases h
  | string s => cases h
  | array elements => cases h

theorem exists_set_of_isObject {v : Json} (k : Text) (x : Json) (h : v.isObject = true) : ∃ w, v.set k x = some w := by
  cases v with
  | object members => exact ⟨_, rfl⟩
  | null => cases h
  | boolean b => cases h
  | integer i => cases h
  | real digits => cases h
  | string s => cases h
  | array elements => cases h

theorem set_eq_none {v : Json} (k : Text) (x : Json) (hnull : v ≠ null) (h : v.isObject = false) : v.set k x = none := by
  cases v with
  | null => exact absurd rfl hnull
  | object members => cases h
  | boolean b => rfl
  | integer i => rfl
  | real digits => rfl
  | string s => rfl
  | array elements => rfl

theorem get_set {v w x : Json} {k : Text} (h : v.set k x = some w) (k' : Text) :
    w.get k' = if k = k' then some x else v.get k' := by
  obtain ⟨members, hv, rfl⟩ := set_cases h
  have hmembers : v.get k' = members.get k' := by
    rcases hv with ⟨rfl, rfl⟩ | rfl <;> rfl
  rw [hmembers]
  refine (Members.get_insert k x k' _).trans ?_
  by_cases hk : k = k'
  · rw [if_pos hk, if_pos hk]
  · rw [if_neg hk, if_neg hk, members.get_erase hk]

theorem isObject_of_set {v w x : Json} {k : Text} (h : v.set k x = some w) : w.isObject = true := by
  obtain ⟨members, -, rfl⟩ := set_cases h
  rfl

/-! ## Texts -/

mutual

/-- The texts and keys of the value. -/
def strings : Json → List Text
  | string s => [s]
  | array elements => elements.strings
  | object members => members.strings
  | null | boolean _ | integer _ | real _ => []

def Elements.strings : Elements → List Text
  | .nil => []
  | .cons v elements => v.strings ++ elements.strings

def Members.strings : Members → List Text
  | .nil => []
  | .cons key v members => key :: v.strings ++ members.strings

end

mutual

/-- The keys of the value and of the values in it. -/
def keys : Json → List Text
  | array elements => elements.keys
  | object members => members.keys
  | null | boolean _ | integer _ | real _ | string _ => []

def Elements.keys : Elements → List Text
  | .nil => []
  | .cons v elements => v.keys ++ elements.keys

def Members.keys : Members → List Text
  | .nil => []
  | .cons key v members => key :: v.keys ++ members.keys

end

mutual

theorem mem_strings_of_mem_keys {s : Text} : (v : Json) → s ∈ v.keys → s ∈ v.strings
  | array elements, h => elements.mem_strings_of_mem_keys h
  | object members, h => members.mem_strings_of_mem_keys h

theorem Elements.mem_strings_of_mem_keys {s : Text} : (elements : Elements) → s ∈ elements.keys → s ∈ elements.strings
  | .cons v elements, h => by
      simp only [Elements.keys, Elements.strings, List.mem_append] at h ⊢
      exact h.imp v.mem_strings_of_mem_keys elements.mem_strings_of_mem_keys

theorem Members.mem_strings_of_mem_keys {s : Text} : (members : Members) → s ∈ members.keys → s ∈ members.strings
  | .cons key v members, h => by
      simp only [Members.keys, Members.strings, List.mem_append, List.mem_cons] at h ⊢
      exact h.imp (Or.imp_right v.mem_strings_of_mem_keys) members.mem_strings_of_mem_keys

end

mutual

/-- Each text and key through the function. -/
def mapStrings (f : Text → Text) : Json → Json
  | string s => string (f s)
  | array elements => array (elements.mapStrings f)
  | object members => object (members.mapStrings f)
  | null => null
  | boolean b => boolean b
  | integer i => integer i
  | real digits => real digits

def Elements.mapStrings (f : Text → Text) : Elements → Elements
  | .nil => .nil
  | .cons v elements => .cons (v.mapStrings f) (elements.mapStrings f)

def Members.mapStrings (f : Text → Text) : Members → Members
  | .nil => .nil
  | .cons key v members => .cons (f key) (v.mapStrings f) (members.mapStrings f)

end

/-- An assignment adds no other keys, and no other texts. -/
theorem Members.keys_insert (k : Text) (x : Json) (s : Text) : (members : Members) →
    s ∈ (members.insert k x).keys → s = k ∨ s ∈ x.keys ∨ s ∈ members.keys
  | nil, h => by simpa [insert, keys] using h
  | cons key v members, h => by
      have ih := keys_insert k x s members
      unfold insert at h
      split at h
      · simp only [keys, List.mem_append, List.mem_cons] at h ⊢
        tauto
      · split at h
        · simp only [keys, List.mem_append, List.mem_cons] at h ⊢
          tauto
        · simp only [keys, List.mem_append, List.mem_cons] at h ⊢
          tauto


theorem Members.strings_insert (k : Text) (x : Json) (s : Text) : (members : Members) →
    s ∈ (members.insert k x).strings → s = k ∨ s ∈ x.strings ∨ s ∈ members.strings
  | nil, h => by simpa [insert, strings] using h
  | cons key v members, h => by
      have ih := strings_insert k x s members
      unfold insert at h
      split at h
      · simp only [strings, List.mem_append, List.mem_cons] at h ⊢
        tauto
      · split at h
        · simp only [strings, List.mem_append, List.mem_cons] at h ⊢
          tauto
        · simp only [strings, List.mem_append, List.mem_cons] at h ⊢
          tauto

theorem Members.keys_erase (k : Text) : (members : Members) → (members.erase k).keys ⊆ members.keys
  | nil => List.Subset.refl _
  | cons key v members => by
      have ih := keys_erase k members
      unfold erase
      split
      · exact fun s hs => List.mem_append_right _ (ih hs)
      · exact List.append_subset.mpr ⟨List.subset_append_left _ _, fun s hs => List.mem_append_right _ (ih hs)⟩

theorem Members.strings_erase (k : Text) : (members : Members) → (members.erase k).strings ⊆ members.strings
  | nil => List.Subset.refl _
  | cons key v members => by
      have ih := strings_erase k members
      unfold erase
      split
      · exact fun s hs => List.mem_append_right _ (ih hs)
      · exact List.append_subset.mpr ⟨List.subset_append_left _ _, fun s hs => List.mem_append_right _ (ih hs)⟩

theorem strings_erase (v : Json) (k : Text) : (v.erase k).strings ⊆ v.strings := by
  cases v with
  | object members => exact members.strings_erase k
  | _ => exact List.Subset.refl _

theorem keys_set {v w x : Json} {k s : Text} (h : v.set k x = some w) (hs : s ∈ w.keys) :
    s = k ∨ s ∈ x.keys ∨ s ∈ v.keys := by
  obtain ⟨members, hv, rfl⟩ := set_cases h
  have hmembers : v.keys = members.keys := by
    rcases hv with ⟨rfl, rfl⟩ | rfl <;> rfl
  rw [hmembers]
  exact (Members.keys_insert k x s _ hs).imp_right (Or.imp_right fun hs => members.keys_erase k hs)

/-- The texts of the member that is replaced are gone. -/
theorem strings_set {v w x : Json} {k s : Text} (h : v.set k x = some w) (hs : s ∈ w.strings) :
    s = k ∨ s ∈ x.strings ∨ s ∈ (v.erase k).strings := by
  obtain ⟨members, ⟨rfl, rfl⟩ | rfl, rfl⟩ := set_cases h
  · exact Members.strings_insert k x s .nil hs
  · exact Members.strings_insert k x s (members.erase k) hs

section mapped

variable {f : Text → Text}

/-- An assignment is made before or after, where the keys stay as they are. -/
theorem Members.mapStrings_insert {k : Text} (x : Json) (hk : f k = k) : (members : Members) →
    (∀ key ∈ members.keys, f key = key) →
      (members.insert k x).mapStrings f = (members.mapStrings f).insert k (x.mapStrings f)
  | .nil, _ => by simp [insert, mapStrings, hk]
  | .cons key v members, h => by
      rw [keys, List.forall_mem_append, List.forall_mem_cons] at h
      have ih := mapStrings_insert x hk members h.2
      rw [mapStrings, h.1.1]
      unfold insert
      split
      · simp [mapStrings, hk]
      · split
        · simp [mapStrings, hk, h.1.1]
        · simp [mapStrings, h.1.1, ih]

theorem Members.mapStrings_erase (k : Text) : (members : Members) → (∀ key ∈ members.keys, f key = key) →
    (members.erase k).mapStrings f = (members.mapStrings f).erase k
  | .nil, _ => rfl
  | .cons key v members, h => by
      rw [keys, List.forall_mem_append, List.forall_mem_cons] at h
      have ih := mapStrings_erase k members h.2
      rw [mapStrings, h.1.1]
      unfold erase
      split
      · exact ih
      · rw [mapStrings, h.1.1, ih]

theorem mapStrings_set {v w x : Json} {k : Text} (h : v.set k x = some w) (hk : f k = k)
    (hkeys : ∀ key ∈ v.keys, f key = key) : (v.mapStrings f).set k (x.mapStrings f) = some (w.mapStrings f) := by
  obtain ⟨members, ⟨rfl, rfl⟩ | rfl, rfl⟩ := set_cases h
  · simp [mapStrings, set, Members.erase, Members.mapStrings_insert x hk .nil hkeys, Members.mapStrings]
  · have herase : ∀ key ∈ (members.erase k).keys, f key = key := fun key hkey => hkeys key (members.keys_erase k hkey)
    simp [mapStrings, set, Members.mapStrings_insert x hk (members.erase k) herase, members.mapStrings_erase k hkeys]

mutual

theorem mapStrings_eq_self : (v : Json) → (∀ s ∈ v.strings, f s = s) → v.mapStrings f = v
  | string s, h => by simp [mapStrings, h s (by simp [strings])]
  | array elements, h => by rw [mapStrings, elements.mapStrings_eq_self h]
  | object members, h => by rw [mapStrings, members.mapStrings_eq_self h]
  | null, _ | boolean _, _ | integer _, _ | real _, _ => rfl

theorem Elements.mapStrings_eq_self : (elements : Elements) → (∀ s ∈ elements.strings, f s = s) →
    elements.mapStrings f = elements
  | .nil, _ => rfl
  | .cons v elements, h => by
      rw [Elements.strings, List.forall_mem_append] at h
      rw [Elements.mapStrings, v.mapStrings_eq_self h.1, elements.mapStrings_eq_self h.2]

theorem Members.mapStrings_eq_self : (members : Members) → (∀ s ∈ members.strings, f s = s) →
    members.mapStrings f = members
  | .nil, _ => rfl
  | .cons key v members, h => by
      rw [Members.strings, List.forall_mem_append, List.forall_mem_cons] at h
      rw [Members.mapStrings, h.1.1, v.mapStrings_eq_self h.1.2, members.mapStrings_eq_self h.2]

end

end mapped

end Json

end Fts3
