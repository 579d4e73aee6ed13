import CaracalDB.PythonValue
import Mathlib.Data.List.TakeWhile

/-!
# Local names

A class or a property is named in a row by an IRI or by its local name: the part
of the IRI behind the last of its separators. A store's directory carries the
local name, so the storage layer accepts only names that are identifiers.
-/

namespace CaracalDB

def INTERNAL_IRI_PREFIX : String := "caracaldb:local:"

/-- The characters behind the last separator, all of them if there is none. -/
def afterLast (separator : Char) (text : List Char) : List Char :=
  (text.reverse.takeWhile (· ≠ separator)).reverse

/-- `text.rstrip("/#")` -/
def rstrip (text : List Char) : List Char :=
  (text.reverse.dropWhile fun char => char = '/' || char = '#').reverse

def localChars (text : List Char) : List Char :=
  afterLast ':' (afterLast '#' (afterLast '/' (rstrip text)))

/-- `_local(iri)` -/
def localOf (iri : String) : String := String.ofList (localChars iri.toList)

/-- `_synthetic_iri(name)` -/
def syntheticIri (name : String) : String := INTERNAL_IRI_PREFIX ++ name

/-- `_coerce_local_name(value, label)` -/
def coerceLocalName (value : Value) (label : String) : Except Raised String :=
  if value = .null then raiseCaracal "CDB-7010" (label ++ " must not be null")
  else if localOf value.toText = "" then raiseCaracal "CDB-7010" (label ++ " must not be empty")
  else .ok (localOf value.toText)

def nameStart (char : Char) : Bool := ('A' ≤ char && char ≤ 'Z') || ('a' ≤ char && char ≤ 'z') || char = '_'

def nameChar (char : Char) : Bool := nameStart char || ('0' ≤ char && char ≤ '9') || char = '-'

/-- The characters an identifier may have behind its first; `$` also matches before a last newline. -/
def nameTail : List Char → Bool
  | [] => true
  | ['\n'] => true
  | char :: rest => nameChar char && nameTail rest

/-- `_LOCAL_NAME_RE.match(name)` -/
def isLocalName (name : String) : Bool :=
  match name.toList with
  | [] => false
  | first :: rest => nameStart first && nameTail rest

/-- The error of a name that cannot be a directory. -/
def assertLocalName (code what name : String) : Except Raised Unit :=
  if isLocalName name then .ok ()
  else .error (.caracal
    { code
      message := "invalid " ++ what ++ " local name: " ++ Value.quoted name
      hint := some "local names must match [A-Za-z_][A-Za-z0-9_-]*" })

/-! ### What a local name is free of -/

theorem mem_afterLast (separator char : Char) (text : List Char)
    (member : char ∈ afterLast separator text) : char ∈ text ∧ char ≠ separator := by
  rw [afterLast, List.mem_reverse] at member
  have kept := List.mem_takeWhile_imp member
  have original := (List.takeWhile_sublist _).subset member
  exact ⟨List.mem_reverse.mp original, by simpa using kept⟩

/-- A local name has no separator. -/
theorem localChars_free (text : List Char) (char : Char) (member : char ∈ localChars text) :
    char ≠ '/' ∧ char ≠ '#' ∧ char ≠ ':' := by
  obtain ⟨inner, colon⟩ := mem_afterLast _ _ _ member
  obtain ⟨middle, hash⟩ := mem_afterLast _ _ _ inner
  obtain ⟨_, slash⟩ := mem_afterLast _ _ _ middle
  exact ⟨slash, hash, colon⟩

theorem afterLast_of_free (separator : Char) (text : List Char)
    (free : ∀ char ∈ text, char ≠ separator) : afterLast separator text = text := by
  unfold afterLast
  rw [List.takeWhile_eq_self_iff.mpr, List.reverse_reverse]
  intro char member
  simpa using free char (List.mem_reverse.mp member)

theorem rstrip_of_free (text : List Char) (free : ∀ char ∈ text, char ≠ '/' ∧ char ≠ '#') :
    rstrip text = text := by
  unfold rstrip
  have keeps : (text.reverse.dropWhile fun char => char = '/' || char = '#') = text.reverse := by
    cases reversed : text.reverse with
    | nil => rfl
    | cons last rest =>
      have member : last ∈ text := List.mem_reverse.mp (by rw [reversed]; exact List.mem_cons_self)
      have clear := free last member
      rw [List.dropWhile_cons_of_neg (by simp [clear.1, clear.2])]
  rw [keeps, List.reverse_reverse]

/-- Taking the local name of a local name changes nothing. -/
theorem localOf_localOf (iri : String) : localOf (localOf iri) = localOf iri := by
  have free := localChars_free iri.toList
  unfold localOf
  rw [String.toList_ofList]
  apply congrArg String.ofList
  generalize localChars iri.toList = name at free
  unfold localChars
  rw [rstrip_of_free name fun char member => ⟨(free char member).1, (free char member).2.1⟩,
    afterLast_of_free '/' name fun char member => (free char member).1,
    afterLast_of_free '#' name fun char member => (free char member).2.1,
    afterLast_of_free ':' name fun char member => (free char member).2.2]

/-- What coercing a name gives is a local name of its own. -/
theorem coerceLocalName_ok {value : Value} {label name : String}
    (coerced : coerceLocalName value label = .ok name) :
    value ≠ .null ∧ name ≠ "" ∧ localOf name = name := by
  unfold coerceLocalName at coerced
  split at coerced
  · cases coerced
  · next present =>
    split at coerced
    · cases coerced
    · next filled =>
      rw [← Except.ok.inj coerced]
      exact ⟨present, filled, localOf_localOf _⟩

theorem afterLast_append (separator : Char) (before name : List Char)
    (free : ∀ char ∈ name, char ≠ separator) :
    afterLast separator (before ++ separator :: name) = name := by
  unfold afterLast
  rw [List.reverse_append, List.reverse_cons, List.append_assoc, List.takeWhile_append_of_pos]
  · simp
  · intro char member
    simpa using free char (List.mem_reverse.mp member)

/-- The local name of the IRI that the engine makes of a local name. -/
theorem localOf_synthetic {name : String} (isLocal : localOf name = name) :
    localOf (syntheticIri name) = name := by
  have free : ∀ char ∈ name.toList, char ≠ '/' ∧ char ≠ '#' ∧ char ≠ ':' := by
    rw [← isLocal, localOf, String.toList_ofList]
    exact localChars_free name.toList
  have split : (syntheticIri name).toList = "caracaldb:local".toList ++ ':' :: name.toList := by
    rw [syntheticIri, String.toList_append]
    rfl
  have clean : ∀ char ∈ (syntheticIri name).toList, char ≠ '/' ∧ char ≠ '#' := by
    rw [split]
    intro char member
    rcases List.mem_append.mp member with inPrefix | inName
    · have fixed : ("caracaldb:local".toList.all fun char => char ≠ '/' ∧ char ≠ '#') = true := by
        decide
      exact of_decide_eq_true (List.all_eq_true.mp fixed char inPrefix)
    · rcases List.mem_cons.mp inName with colon | inName
      · subst colon
        decide
      · exact ⟨(free char inName).1, (free char inName).2.1⟩
  rw [localOf, localChars, rstrip_of_free _ clean,
    afterLast_of_free '/' _ fun char member => (clean char member).1,
    afterLast_of_free '#' _ fun char member => (clean char member).2, split,
    afterLast_append ':' _ _ fun char member => (free char member).2.2, String.ofList_toList]

/-- No local name is the IRI of a class that the engine named itself. -/
theorem localOf_ne_synthetic {name other : String} (isLocal : localOf name = name) :
    name ≠ syntheticIri other := by
  intro same
  have colon : ':' ∈ name.toList := by
    rw [same, syntheticIri, String.toList_append]
    exact List.mem_append_left _ (by decide)
  rw [← isLocal, localOf, String.toList_ofList] at colon
  exact (localChars_free _ _ colon).2.2 rfl

end CaracalDB
