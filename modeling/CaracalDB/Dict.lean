import Mathlib.Data.List.Nodup
import Mathlib.Data.List.Basic

/-!
# Dictionaries in insertion order

A dictionary is a list of entries whose keys are distinct. Storing under a known
key replaces the value in place; storing under a new key appends an entry. So
reading the entries in order gives the order in which the keys first arrived.
-/

namespace CaracalDB

/-- Entries in the order in which their keys first arrived. -/
@[ext] structure Dict (Key Value : Type) where
  entries : List (Key × Value)
  distinct : (entries.map Prod.fst).Nodup
deriving DecidableEq

namespace Dict

variable {Key Value : Type}

def empty : Dict Key Value := { entries := [], distinct := List.nodup_nil }

def keys (dict : Dict Key Value) : List Key := dict.entries.map Prod.fst

def values (dict : Dict Key Value) : List Value := dict.entries.map Prod.snd

@[simp] theorem keys_empty : (empty : Dict Key Value).keys = [] := rfl

variable [DecidableEq Key]

def get? (dict : Dict Key Value) (key : Key) : Option Value :=
  (dict.entries.find? fun entry => entry.1 = key).map Prod.snd

def contains (dict : Dict Key Value) (key : Key) : Bool := (dict.get? key).isSome

/-- The entries after storing `value` under `key`. -/
def setEntries (entries : List (Key × Value)) (key : Key) (value : Value) : List (Key × Value) :=
  if key ∈ entries.map Prod.fst then
    entries.map fun entry => if entry.1 = key then (key, value) else entry
  else entries ++ [(key, value)]

/-- Storing keeps the known keys in their order and appends a new one. -/
theorem setEntries_keys (entries : List (Key × Value)) (key : Key) (value : Value) :
    (setEntries entries key value).map Prod.fst =
      if key ∈ entries.map Prod.fst then entries.map Prod.fst
      else entries.map Prod.fst ++ [key] := by
  unfold setEntries
  split
  · rw [List.map_map]
    apply List.map_congr_left
    intro entry _
    by_cases same : entry.1 = key
    · simp [same]
    · simp [same]
  · simp

theorem setEntries_distinct (entries : List (Key × Value)) (key : Key) (value : Value)
    (distinct : (entries.map Prod.fst).Nodup) :
    ((setEntries entries key value).map Prod.fst).Nodup := by
  rw [setEntries_keys]
  split
  · exact distinct
  · next absent =>
    rw [List.nodup_append]
    refine ⟨distinct, List.nodup_singleton key, ?_⟩
    intro known member new isNew same
    rw [List.mem_singleton.mp isNew] at same
    exact absent (same ▸ member)

/-- `dict[key] = value` -/
def set (dict : Dict Key Value) (key : Key) (value : Value) : Dict Key Value :=
  { entries := setEntries dict.entries key value
    distinct := setEntries_distinct dict.entries key value dict.distinct }

/-- `{**dict, **newer}` -/
def update (dict newer : Dict Key Value) : Dict Key Value :=
  newer.entries.foldl (fun merged entry => merged.set entry.1 entry.2) dict

/-- The dictionary of a list of entries, later entries winning. -/
def ofEntries (entries : List (Key × Value)) : Dict Key Value :=
  entries.foldl (fun merged entry => merged.set entry.1 entry.2) empty

/-- The entries under the keys that a test accepts. -/
def keep (dict : Dict Key Value) (accepts : Key → Bool) : Dict Key Value :=
  { entries := dict.entries.filter fun entry => accepts entry.1
    distinct := by
      have sublist := (List.filter_sublist (p := fun entry : Key × Value => accepts entry.1)
        (l := dict.entries)).map Prod.fst
      exact dict.distinct.sublist sublist }

/-- `dict.pop(key, None)` -/
def erase (dict : Dict Key Value) (key : Key) : Dict Key Value := dict.keep (· ≠ key)

/-! ### Looking up -/

theorem find_of_mem (entries : List (Key × Value)) (distinct : (entries.map Prod.fst).Nodup)
    (key : Key) (value : Value) (member : (key, value) ∈ entries) :
    (entries.find? fun entry => entry.1 = key) = some (key, value) := by
  induction entries with
  | nil => cases member
  | cons head rest inductionHypothesis =>
    rw [List.map_cons, List.nodup_cons] at distinct
    rcases List.mem_cons.mp member with atHead | later
    · rw [← atHead]
      simp
    · have different : head.1 ≠ key := by
        intro same
        apply distinct.1
        rw [same]
        exact List.mem_map_of_mem (f := Prod.fst) later
      rw [List.find?_cons_of_neg (by simpa using different)]
      exact inductionHypothesis distinct.2 later

/-- Looking a key up finds exactly the entries of the dictionary. -/
theorem get_eq_some (dict : Dict Key Value) (key : Key) (value : Value) :
    dict.get? key = some value ↔ (key, value) ∈ dict.entries := by
  unfold get?
  constructor
  · intro found
    obtain ⟨entry, hit, rfl⟩ := Option.map_eq_some_iff.mp found
    have same := List.find?_some hit
    have member := List.mem_of_find?_eq_some hit
    simp only [decide_eq_true_eq] at same
    rw [← same]
    exact member
  · intro member
    rw [find_of_mem dict.entries dict.distinct key value member]
    rfl

theorem mem_keys (dict : Dict Key Value) (key : Key) :
    key ∈ dict.keys ↔ ∃ value, dict.get? key = some value := by
  unfold keys
  constructor
  · intro member
    obtain ⟨entry, found, rfl⟩ := List.mem_map.mp member
    exact ⟨entry.2, (dict.get_eq_some entry.1 entry.2).mpr found⟩
  · rintro ⟨value, found⟩
    exact List.mem_map_of_mem (f := Prod.fst) ((dict.get_eq_some key value).mp found)

theorem get_eq_none (dict : Dict Key Value) (key : Key) :
    dict.get? key = none ↔ key ∉ dict.keys := by
  rw [mem_keys, Option.eq_none_iff_forall_ne_some]
  simp

theorem contains_iff (dict : Dict Key Value) (key : Key) :
    dict.contains key = true ↔ key ∈ dict.keys := by
  rw [contains, Option.isSome_iff_exists, mem_keys]

theorem mem_values (dict : Dict Key Value) (value : Value) :
    value ∈ dict.values ↔ ∃ key, dict.get? key = some value := by
  unfold values
  constructor
  · intro member
    obtain ⟨entry, found, rfl⟩ := List.mem_map.mp member
    exact ⟨entry.1, (dict.get_eq_some entry.1 entry.2).mpr found⟩
  · rintro ⟨key, found⟩
    exact List.mem_map_of_mem (f := Prod.snd) ((dict.get_eq_some key value).mp found)

@[simp] theorem get_empty (key : Key) : (empty : Dict Key Value).get? key = none := rfl

/-! ### Storing -/

theorem keys_set (dict : Dict Key Value) (key : Key) (value : Value) :
    (dict.set key value).keys = if key ∈ dict.keys then dict.keys else dict.keys ++ [key] :=
  setEntries_keys dict.entries key value

theorem mem_set (dict : Dict Key Value) (key : Key) (value : Value) (entry : Key × Value) :
    entry ∈ (dict.set key value).entries ↔
      entry = (key, value) ∨ (entry.1 ≠ key ∧ entry ∈ dict.entries) := by
  obtain ⟨name, stored⟩ := entry
  show (name, stored) ∈ setEntries dict.entries key value ↔ _
  unfold setEntries
  split
  · next present =>
    rw [List.mem_map]
    constructor
    · rintro ⟨old, member, replaced⟩
      split at replaced
      · exact Or.inl replaced.symm
      · next different =>
        subst replaced
        exact Or.inr ⟨different, member⟩
    · rintro (new | ⟨different, member⟩)
      · obtain ⟨old, member, same⟩ := List.mem_map.mp present
        exact ⟨old, member, by simp [same, new]⟩
      · exact ⟨(name, stored), member, if_neg different⟩
  · next absent =>
    rw [List.mem_append, List.mem_singleton]
    constructor
    · rintro (member | new)
      · refine Or.inr ⟨?_, member⟩
        intro same
        apply absent
        rw [← same]
        exact List.mem_map_of_mem (f := Prod.fst) member
      · exact Or.inl new
    · rintro (new | ⟨_, member⟩)
      · exact Or.inr new
      · exact Or.inl member

theorem get_set (dict : Dict Key Value) (key other : Key) (value : Value) :
    (dict.set key value).get? other = if other = key then some value else dict.get? other := by
  apply Option.ext
  intro found
  rw [get_eq_some, mem_set]
  by_cases same : other = key
  · simp [same, eq_comm]
  · rw [if_neg same, get_eq_some]
    simp [same]

@[simp] theorem get_set_self (dict : Dict Key Value) (key : Key) (value : Value) :
    (dict.set key value).get? key = some value := by
  simp [get_set]

theorem get_set_of_ne (dict : Dict Key Value) {key other : Key} (different : other ≠ key)
    (value : Value) : (dict.set key value).get? other = dict.get? other := by
  simp [get_set, different]

theorem mem_keys_set (dict : Dict Key Value) (key other : Key) (value : Value) :
    other ∈ (dict.set key value).keys ↔ other = key ∨ other ∈ dict.keys := by
  rw [keys_set]
  by_cases present : key ∈ dict.keys
  · rw [if_pos present]
    constructor
    · exact Or.inr
    · rintro (same | member)
      · exact same ▸ present
      · exact member
  · rw [if_neg present, List.mem_append, List.mem_singleton]
    exact Or.comm

/-! ### Merging and selecting -/

theorem get_foldl_set (entries : List (Key × Value)) (distinct : (entries.map Prod.fst).Nodup)
    (dict : Dict Key Value) (key : Key) :
    (entries.foldl (fun merged entry => merged.set entry.1 entry.2) dict).get? key =
      ((entries.find? fun entry => entry.1 = key).map Prod.snd).or (dict.get? key) := by
  induction entries generalizing dict with
  | nil => rfl
  | cons head rest inductionHypothesis =>
    rw [List.map_cons, List.nodup_cons] at distinct
    rw [List.foldl_cons, inductionHypothesis distinct.2, get_set]
    by_cases same : head.1 = key
    · have later : (rest.find? fun entry => entry.1 = key) = none := by
        rw [List.find?_eq_none]
        intro entry member hit
        apply distinct.1
        rw [same, ← of_decide_eq_true hit]
        exact List.mem_map_of_mem (f := Prod.fst) member
      rw [later, List.find?_cons_of_pos (by simpa using same), if_pos same.symm]
      rfl
    · rw [if_neg (Ne.symm same), List.find?_cons_of_neg (by simpa using same)]

/-- The last value that is stored under a key stays. -/
theorem get_foldl_last (entries : List (Key × Value)) (dict : Dict Key Value) (key : Key) :
    (entries.foldl (fun changed entry => changed.set entry.1 entry.2) dict).get? key =
      ((entries.filter fun entry => entry.1 = key).map Prod.snd).getLast?.or (dict.get? key) := by
  induction entries generalizing dict with
  | nil => rfl
  | cons entry entries inductionHypothesis =>
    rw [List.foldl_cons, inductionHypothesis, get_set, List.filter_cons]
    by_cases here : entry.1 = key
    · rw [if_pos here.symm, if_pos (decide_eq_true here), List.map_cons, List.getLast?_cons]
      cases ((entries.filter fun entry => entry.1 = key).map Prod.snd).getLast? <;> rfl
    · rw [if_neg (Ne.symm here), if_neg (by simpa using here)]

/-- New entries with distinct keys are put behind the others. -/
theorem entries_foldl_set (entries : List (Key × Value)) (distinct : (entries.map Prod.fst).Nodup)
    (dict : Dict Key Value) (new : ∀ entry ∈ entries, entry.1 ∉ dict.keys) :
    (entries.foldl (fun merged entry => merged.set entry.1 entry.2) dict).entries =
      dict.entries ++ entries := by
  induction entries generalizing dict with
  | nil => exact (List.append_nil _).symm
  | cons head rest inductionHypothesis =>
    rw [List.map_cons, List.nodup_cons] at distinct
    have added : (dict.set head.1 head.2).entries = dict.entries ++ [head] :=
      if_neg (new head List.mem_cons_self)
    rw [List.foldl_cons, inductionHypothesis distinct.2, added, List.append_assoc]
    · rfl
    · intro entry member known
      rcases (mem_keys_set dict head.1 entry.1 head.2).mp known with same | before
      · exact distinct.1 (same ▸ List.mem_map_of_mem member)
      · exact new entry (List.mem_cons_of_mem head member) before

/-- A dictionary is that of its entries. -/
theorem ofEntries_eq (dict : Dict Key Value) : ofEntries dict.entries = dict := by
  apply Dict.ext
  rw [ofEntries, entries_foldl_set dict.entries dict.distinct empty fun _ _ => List.not_mem_nil]
  rfl

/-- The newer dictionary decides where it has an entry. -/
theorem get_update (dict newer : Dict Key Value) (key : Key) :
    (dict.update newer).get? key = (newer.get? key).or (dict.get? key) :=
  get_foldl_set newer.entries newer.distinct dict key

theorem get_keep (dict : Dict Key Value) (accepts : Key → Bool) (key : Key) :
    (dict.keep accepts).get? key = if accepts key then dict.get? key else none := by
  apply Option.ext
  intro value
  rw [get_eq_some]
  show (key, value) ∈ dict.entries.filter (fun entry => accepts entry.1) ↔ _
  rw [List.mem_filter]
  by_cases accepted : accepts key = true
  · simp [accepted, get_eq_some]
  · simp [accepted]

theorem get_erase (dict : Dict Key Value) (key other : Key) :
    (dict.erase key).get? other = if other = key then none else dict.get? other := by
  rw [erase, get_keep]
  by_cases same : other = key
  · simp [same]
  · simp [same]

end Dict

end CaracalDB
