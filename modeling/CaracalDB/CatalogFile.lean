import CaracalDB.CatalogRecords
import Mathlib.Data.List.Sort

/-!
# The catalog's file

The catalog is kept as a JSON text behind a magic header. The keys of every object
stand in the text in their order, whatever the order of the dictionary. JSON itself
is taken as it is: a value's text is read back as the value.
-/

namespace CaracalDB.Onto

/-! ## Values as JSON has them -/

mutual

/-- Whether a value has a JSON text of its own; floats do not occur in a catalog. -/
def isJson : Value → Bool
  | .null => true
  | .bool _ => true
  | .int _ => true
  | .float _ => false
  | .str _ => true
  | .other _ _ => false
  | .list items => areJson items
  | .dict entries => haveJson entries && decide (entries.map Prod.fst).Nodup

def areJson : List Value → Bool
  | [] => true
  | item :: items => isJson item && areJson items

def haveJson : List (String × Value) → Bool
  | [] => true
  | (_, value) :: entries => isJson value && haveJson entries

end

/-- The order of two entries by their keys. -/
def keyOrder (first second : String × Value) : Prop := first.1 ≤ second.1

instance : DecidableRel keyOrder := fun first second =>
  inferInstanceAs (Decidable (first.1 ≤ second.1))

mutual

/-- A value with the keys of its dictionaries in order, as `sort_keys=True` writes it. -/
def sorted : Value → Value
  | .list items => .list (sortedItems items)
  | .dict entries => .dict (sortedEntries entries)
  | value => value

def sortedItems : List Value → List Value
  | [] => []
  | item :: items => sorted item :: sortedItems items

def sortedEntries : List (String × Value) → List (String × Value)
  | [] => []
  | (name, value) :: entries =>
      (sortedEntries entries).orderedInsert keyOrder (name, sorted value)

end

/-- JSON with its texts in UTF-8: a text for each value, and each value back from its text. -/
structure Json (Text : Type) where
  dumps : Value → Text
  loads : Text → Except Raised Value
  loads_dumps : ∀ value, isJson value = true → loads (dumps value) = .ok value

/-! ## The file -/

def MAGIC : List Nat := [67, 82, 67, 76, 0, 0, 0, 1]

def CATALOG_ENCODING : String := "caracal.catalog.v1+json"

/-- The bytes of a file: the first ones, as many as the magic header has, and the text behind. -/
structure FileBytes (Text : Type) where
  header : List Nat
  text : Text

section File

variable {Text : Type} (json : Json Text)

/-- The dictionary around the catalog's. -/
def envelope (catalog : Catalog) : Value := .dict
  [("encoding", .str CATALOG_ENCODING), ("catalog", catalog.toDict)]

/-- `catalog.to_bytes()` -/
def Catalog.toBytes (catalog : Catalog) : FileBytes Text :=
  { header := MAGIC
    text := json.dumps (sorted (envelope catalog)) }

/-- `Catalog.from_bytes(data)` -/
def Catalog.fromBytes (c : Conversions) (now : String) (data : FileBytes Text) :
    Except Raised Catalog := do
  if data.header ≠ MAGIC then
    raiseCaracal "CDB-9501" "catalog file has invalid magic header"
  else
    let payload ← json.loads data.text
    if (← entryOr "encoding" .null payload) ≠ .str CATALOG_ENCODING then
      raiseCaracal "CDB-9501" "unsupported catalog encoding"
    else
      Catalog.fromDict c now (← entry "catalog" payload)

end File

end CaracalDB.Onto
