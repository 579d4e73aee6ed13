import CaracalDB.Dict

/-!
# Filing under keys

Items are filed one after another, each behind those that have its key already.
What is filed under a key in the end are the items with the key, in their order.
-/

namespace CaracalDB.Dict

variable {Key Item : Type} [DecidableEq Key]

/-- `dict.setdefault(key, []).append(item)` -/
def file (dict : Dict Key (List Item)) (filed : Key × Item) : Dict Key (List Item) :=
  dict.set filed.1 ((dict.get? filed.1).getD [] ++ [filed.2])

theorem get_file (pairs : List (Key × Item)) (dict : Dict Key (List Item)) (key : Key) :
    (pairs.foldl file dict).get? key =
      if pairs.any (fun pair => pair.1 = key) then
        some ((dict.get? key).getD [] ++ (pairs.filter fun pair => pair.1 = key).map Prod.snd)
      else dict.get? key := by
  induction pairs generalizing dict with
  | nil => simp
  | cons pair pairs inductionHypothesis =>
    rw [List.foldl_cons, inductionHypothesis, file, Dict.get_set]
    by_cases here : pair.1 = key
    · subst here
      by_cases later : pairs.any (fun other => other.1 = pair.1) = true
      · simp [later]
      · have none : pairs.filter (fun other => other.1 = pair.1) = [] := by
          rw [List.filter_eq_nil_iff]
          intro other member same
          exact later (List.any_eq_true.mpr ⟨other, member, same⟩)
        rw [if_neg later, if_pos rfl, if_pos (by simp), List.filter_cons_of_pos (by simp), none]
        rfl
    · have apart : decide (pair.1 = key) = false := decide_eq_false here
      rw [if_neg (Ne.symm here), List.any_cons, apart, Bool.false_or,
        List.filter_cons_of_neg (by simpa using here)]

/-- The dictionary with each value changed. -/
def mapValues {Value Made : Type} (dict : Dict Key Value) (make : Value → Made) : Dict Key Made :=
  { entries := dict.entries.map fun entry => (entry.1, make entry.2)
    distinct := by
      rw [List.map_map]
      exact dict.distinct }

theorem get_mapValues {Value Made : Type} (dict : Dict Key Value) (make : Value → Made)
    (key : Key) : (dict.mapValues make).get? key = (dict.get? key).map make := by
  apply Option.ext
  intro made
  rw [get_eq_some, Option.map_eq_some_iff, mapValues]
  simp only [List.mem_map, Prod.mk.injEq, get_eq_some]
  constructor
  · rintro ⟨⟨other, value⟩, member, rfl, same⟩
    exact ⟨value, member, same⟩
  · rintro ⟨value, member, same⟩
    exact ⟨(key, value), member, rfl, same⟩

/-- What is filed under a key when nothing was filed before. -/
theorem filed_under (pairs : List (Key × Item)) (key : Key) :
    ((pairs.foldl file empty).get? key).getD [] =
      (pairs.filter fun pair => pair.1 = key).map Prod.snd := by
  rw [get_file]
  by_cases filed : pairs.any (fun pair => pair.1 = key) = true
  · rw [if_pos filed]
    rfl
  · rw [if_neg filed]
    refine (List.map_eq_nil_iff.mpr (List.filter_eq_nil_iff.mpr ?_)).symm
    intro pair member same
    exact filed (List.any_eq_true.mpr ⟨pair, member, same⟩)

end CaracalDB.Dict
