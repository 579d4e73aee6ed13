import CaracalDB.UpsertRewrite

/-!
# Where the rows of a class are written back

The name of a class leads to a directory of the catalog, and defining a class leaves the properties
of the catalog as they are.
-/

namespace CaracalDB.Database

/-- The directory that a name leads to once it is defined. -/
def directoryOf (view : List (String × String)) (name : String) : String :=
  ((target view name).map Prod.snd).getD ""

theorem directoryOf_eq {view : List (String × String)} {name iri directory : String}
    (leads : target view name = some (iri, directory)) : directoryOf view name = directory := by
  rw [directoryOf, leads]
  rfl

theorem define_class_properties (catalog : Catalog) (name : String) :
    (catalog.define_class name none []).2.properties = catalog.properties := by
  rw [Catalog.define_class]
  dsimp only
  split
  · rw [Catalog.merge_class]
    split <;> rfl
  · rfl

end CaracalDB.Database
