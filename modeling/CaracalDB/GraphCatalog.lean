import CaracalDB.LocalName

/-!
# The catalog

The catalog lists the classes and the properties of a graph. Rows name them by IRI
or by local name; defining one that either way exists already gives the existing
one. A class may gain a local name and superclasses that way, a property gains
nothing.
-/

namespace CaracalDB

/-- A class or a property: its number in the catalog, its names and, of a class, its
superclasses. -/
structure Definition where
  id : Nat
  iri : String
  local_name : Option String
  superclass_iris : List String := []
deriving DecidableEq

/-- `given or otherwise` of an optional text. -/
def textOr (given : Option String) (otherwise : String) : String :=
  match given with
  | none => otherwise
  | some text => if text = "" then otherwise else text

/-- `item.local_name or _local(item.iri)` -/
def Definition.localName (item : Definition) : String := textOr item.local_name (localOf item.iri)

/-- `_next_id(values)` -/
def nextId (ids : List Nat) : Nat := ids.foldl max 0 + 1

/-- The classes or the properties, each under its own number. -/
structure Registry where
  items : List Definition
  numbered : (items.map Definition.id).Nodup
deriving DecidableEq

theorem le_foldl_max (ids : List Nat) (start : Nat) : start ≤ ids.foldl max start := by
  induction ids generalizing start with
  | nil => exact Nat.le_refl _
  | cons id ids inductionHypothesis =>
    exact Nat.le_trans (Nat.le_max_left start id) (inductionHypothesis _)

theorem mem_le_foldl_max (ids : List Nat) (start id : Nat) (member : id ∈ ids) :
    id ≤ ids.foldl max start := by
  induction ids generalizing start with
  | nil => cases member
  | cons head ids inductionHypothesis =>
    rcases List.mem_cons.mp member with same | later
    · subst same
      exact Nat.le_trans (Nat.le_max_right start id) (le_foldl_max ids _)
    · exact inductionHypothesis _ later

/-- The next number is none of the numbers given out. -/
theorem nextId_fresh (ids : List Nat) : nextId ids ∉ ids := by
  intro member
  have bounded := mem_le_foldl_max ids 0 _ member
  exact absurd bounded (by unfold nextId; omega)

namespace Registry

/-- `catalog.class_by_iri(iri)`, `catalog.property_by_iri(iri)` -/
def by_iri (registry : Registry) (iri : String) : Option Definition :=
  registry.items.find? fun item => item.iri = iri

/-- The first with a local name; `_find_property_by_local_name(db, name)` of properties. -/
def by_name (registry : Registry) (name : String) : Option Definition :=
  registry.items.find? fun item => item.localName = name

/-- `_find_class(iri)`, `_find_property(iri)` -/
def find (registry : Registry) (kind iri : String) : Except Raised Definition :=
  match (registry.by_iri iri).or (registry.by_name iri) with
  | some item => .ok item
  | none => raiseCaracal "CDB-6021" (kind ++ " not found in catalog: " ++ Value.quoted iri)

/-- `register_class`, `register_property` -/
def register (registry : Registry) (iri name : String) (superclass_iris : List String) :
    Definition × Registry :=
  let item : Definition :=
    { id := nextId (registry.items.map Definition.id)
      iri
      local_name := some (textOr (some name) (localOf iri))
      superclass_iris }
  (item,
    { items := registry.items ++ [item]
      numbered := by
        rw [List.map_append, List.nodup_append]
        refine ⟨registry.numbered, List.nodup_singleton _, ?_⟩
        intro id known new isNew same
        rw [List.mem_singleton.mp isNew] at same
        exact nextId_fresh _ (same ▸ known) })

/-- A definition takes the place of the one with its number. -/
def replace (registry : Registry) (updated : Definition) : Registry :=
  { items := registry.items.map fun item => if item.id = updated.id then updated else item
    numbered := by
      have ids : (registry.items.map fun item =>
          if item.id = updated.id then updated else item).map Definition.id =
            registry.items.map Definition.id := by
        rw [List.map_map]
        apply List.map_congr_left
        intro item _
        by_cases same : item.id = updated.id
        · simp [same]
        · simp [same]
      rw [ids]
      exact registry.numbered }

/-- What `define_class` and `_define_property` find under an IRI or a name. -/
def existing (registry : Registry) (iri name : String) : Option Definition :=
  (registry.by_iri iri).or (registry.by_name name)

end Registry

structure Catalog where
  classes : Registry := { items := [], numbered := List.nodup_nil }
  properties : Registry := { items := [], numbered := List.nodup_nil }
deriving DecidableEq

namespace Catalog

/-- `db._find_class(iri)` -/
def find_class (catalog : Catalog) (iri : String) : Except Raised Definition :=
  catalog.classes.find "class" iri

/-- `db._find_property(iri)` -/
def find_property (catalog : Catalog) (iri : String) : Except Raised Definition :=
  catalog.properties.find "property" iri

/-- `db._merge_class(cls, local_name=..., superclass_iris=...)` -/
def merge_class (catalog : Catalog) (cls : Definition) (local_name : String)
    (superclass_iris : List String) : Definition × Catalog :=
  let merged : Definition :=
    { cls with
      local_name := some (textOr cls.local_name local_name)
      superclass_iris := (cls.superclass_iris ++ superclass_iris).eraseDups }
  if merged = cls then (cls, catalog)
  else (merged, { catalog with classes := catalog.classes.replace merged })

/-- `db.define_class(name, iri=..., superclass_iris=...)` -/
def define_class (catalog : Catalog) (name : String) (iri : Option String)
    (superclass_iris : List String) : Definition × Catalog :=
  let class_iri := textOr iri (syntheticIri name)
  match catalog.classes.existing class_iri name with
  | some cls => catalog.merge_class cls name superclass_iris
  | none =>
      let (cls, classes) := catalog.classes.register class_iri name superclass_iris
      (cls, { catalog with classes })

/-- `db._define_property(name, iri=...)` -/
def define_property (catalog : Catalog) (name : String) (iri : Option String) :
    Definition × Catalog :=
  let property_iri := textOr iri (syntheticIri name)
  match catalog.properties.existing property_iri name with
  | some prop => (prop, catalog)
  | none =>
      let (prop, properties) := catalog.properties.register property_iri name []
      (prop, { catalog with properties })

end Catalog

/-! ## What names lead to -/

/-- The IRIs and local names of a registry in order. -/
def Registry.view (registry : Registry) : List (String × String) :=
  registry.items.map fun item => (item.iri, item.localName)

/-- The first entry with an IRI. -/
def iriEntry (view : List (String × String)) (iri : String) : Option (String × String) :=
  view.find? fun entry => entry.1 = iri

/-- The first entry with a local name. -/
def nameEntry (view : List (String × String)) (name : String) : Option (String × String) :=
  view.find? fun entry => entry.2 = name

/-- The entry that `find` takes: by IRI, else by local name. -/
def leads (view : List (String × String)) (text : String) : Option (String × String) :=
  (iriEntry view text).or (nameEntry view text)

/-- The entries after a name is defined without an IRI. -/
def defined (view : List (String × String)) (name : String) : List (String × String) :=
  if (iriEntry view (syntheticIri name)).or (nameEntry view name) = none then
    view ++ [(syntheticIri name, name)]
  else view

/-- A name that stands for itself. -/
def IsName (name : String) : Prop := name ≠ "" ∧ localOf name = name

theorem coerceLocalName_isName {value : Value} {label name : String}
    (coerced : coerceLocalName value label = .ok name) : IsName name :=
  (coerceLocalName_ok coerced).2

namespace Registry

theorem iriEntry_view (registry : Registry) (iri : String) :
    iriEntry registry.view iri =
      (registry.by_iri iri).map fun item => (item.iri, item.localName) := by
  unfold iriEntry view by_iri
  rw [List.find?_map]
  rfl

theorem nameEntry_view (registry : Registry) (name : String) :
    nameEntry registry.view name =
      (registry.by_name name).map fun item => (item.iri, item.localName) := by
  unfold nameEntry view by_name
  rw [List.find?_map]
  rfl

theorem leads_view (registry : Registry) (text : String) :
    leads registry.view text =
      ((registry.by_iri text).or (registry.by_name text)).map fun item =>
        (item.iri, item.localName) := by
  rw [leads, iriEntry_view, nameEntry_view]
  cases registry.by_iri text <;> rfl

/-- What `find` answers is what the text leads to. -/
theorem find_ok {registry : Registry} {kind text : String} {item : Definition}
    (found : registry.find kind text = .ok item) :
    leads registry.view text = some (item.iri, item.localName) := by
  rw [leads_view]
  unfold find at found
  cases either : (registry.by_iri text).or (registry.by_name text) with
  | none =>
    rw [either] at found
    cases found
  | some other =>
    rw [either] at found
    rw [Except.ok.inj found]
    rfl

theorem find_of_leads {registry : Registry} (kind : String) {text iri name : String}
    (target : leads registry.view text = some (iri, name)) :
    ∃ item, registry.find kind text = .ok item ∧ item.iri = iri ∧ item.localName = name := by
  rw [leads_view] at target
  obtain ⟨item, either, same⟩ := Option.map_eq_some_iff.mp target
  refine ⟨item, ?_, congrArg Prod.fst same, congrArg Prod.snd same⟩
  unfold find
  rw [either]

theorem view_register (registry : Registry) (iri name : String) (superclass_iris : List String)
    (filled : name ≠ "") :
    (registry.register iri name superclass_iris).2.view = registry.view ++ [(iri, name)] := by
  unfold register view
  rw [List.map_append]
  simp [Definition.localName, textOr, filled]

/-- A definition that keeps its IRI and its local name can be replaced unnoticed. -/
theorem view_replace (registry : Registry) (old updated : Definition)
    (member : old ∈ registry.items) (sameId : updated.id = old.id) (sameIri : updated.iri = old.iri)
    (sameName : updated.localName = old.localName) :
    (registry.replace updated).view = registry.view := by
  unfold replace view
  rw [List.map_map]
  apply List.map_congr_left
  intro item inItems
  by_cases same : item.id = updated.id
  · have unique : item = old := by
      apply List.inj_on_of_nodup_map registry.numbered inItems member
      rw [same, sameId]
    subst unique
    simp [same, sameIri, sameName]
  · simp [same]

end Registry

namespace Catalog

theorem existing_view (registry : Registry) (name : String) :
    registry.existing (syntheticIri name) name = none ↔
      (iriEntry registry.view (syntheticIri name)).or (nameEntry registry.view name) = none := by
  rw [Registry.iriEntry_view, Registry.nameEntry_view, Registry.existing]
  cases registry.by_iri (syntheticIri name) <;> cases registry.by_name name <;> simp

theorem textOr_none (name : String) : textOr none (syntheticIri name) = syntheticIri name := rfl

/-- Defining a class by its name adds the class if nothing has the name or its IRI. -/
theorem view_define_class (catalog : Catalog) {name : String} (isName : IsName name) :
    (catalog.define_class name none []).2.classes.view = defined catalog.classes.view name := by
  unfold define_class defined
  dsimp only
  rw [textOr_none]
  cases found : catalog.classes.existing (syntheticIri name) name with
  | none =>
    rw [if_pos ((existing_view catalog.classes name).mp found)]
    exact Registry.view_register catalog.classes _ name [] isName.1
  | some cls =>
    rw [if_neg fun nothing => by
      rw [(existing_view catalog.classes name).mpr nothing] at found
      cases found]
    have member : cls ∈ catalog.classes.items := by
      rcases Option.or_eq_some_iff.mp found with byIri | ⟨_, byName⟩
      · exact List.mem_of_find?_eq_some byIri
      · exact List.mem_of_find?_eq_some byName
    have unnamed : textOr cls.local_name "" = "" → cls.localName = name := by
      intro empty
      rcases Option.or_eq_some_iff.mp found with byIri | ⟨_, byName⟩
      · have iri : cls.iri = syntheticIri name := by simpa using List.find?_some byIri
        have fallback : cls.localName = localOf cls.iri := by
          unfold Definition.localName textOr
          unfold textOr at empty
          cases given : cls.local_name with
          | none => rfl
          | some text =>
            rw [given] at empty
            by_cases blank : text = ""
            · simp [blank]
            · simp [blank] at empty
        rw [fallback, iri]
        exact localOf_synthetic isName.2
      · simpa using List.find?_some byName
    show (merge_class catalog cls name []).2.classes.view = _
    unfold merge_class
    dsimp only
    split
    · rfl
    · refine Registry.view_replace catalog.classes cls _ member ?_ ?_ ?_
      · rfl
      · rfl
      · show textOr (some (textOr cls.local_name name)) (localOf cls.iri) = cls.localName
        unfold Definition.localName
        cases given : cls.local_name with
        | none =>
          have named := unnamed (by rw [given]; rfl)
          rw [Definition.localName, given] at named
          rw [named]
          simp [textOr, isName.1]
        | some text =>
          by_cases blank : text = ""
          · have named := unnamed (by rw [given]; simp [textOr, blank])
            rw [Definition.localName, given] at named
            rw [named]
            simp [textOr, blank, isName.1]
          · simp [textOr, blank]

/-- Defining a property by its name adds it if nothing has the name or its IRI. -/
theorem view_define_property (catalog : Catalog) {name : String} (isName : IsName name) :
    (catalog.define_property name none).2.properties.view =
      defined catalog.properties.view name := by
  unfold define_property defined
  dsimp only
  rw [textOr_none]
  cases found : catalog.properties.existing (syntheticIri name) name with
  | none =>
    rw [if_pos ((existing_view catalog.properties name).mp found)]
    exact Registry.view_register catalog.properties _ name [] isName.1
  | some prop =>
    rw [if_neg fun nothing => by
      rw [(existing_view catalog.properties name).mpr nothing] at found
      cases found]

end Catalog

/-! ### Defining several names -/

theorem find_append_of_ne {Item : Type} (accepts : Item → Bool) (items : List Item) (last : Item)
    (rejected : accepts last = false) :
    (items ++ [last]).find? accepts = items.find? accepts := by
  rw [List.find?_append]
  simp [rejected]

/-- Defining another name leaves what a name leads to. -/
theorem entries_defined (view : List (String × String)) {name other : String}
    (isName : IsName name) (different : name ≠ other) :
    iriEntry (defined view other) name = iriEntry view name ∧
      nameEntry (defined view other) name = nameEntry view name ∧
      iriEntry (defined view other) (syntheticIri name) = iriEntry view (syntheticIri name) := by
  unfold defined
  split
  · refine ⟨?_, ?_, ?_⟩
    · apply find_append_of_ne
      simpa using Ne.symm (localOf_ne_synthetic isName.2)
    · apply find_append_of_ne
      simpa using Ne.symm different
    · apply find_append_of_ne
      simpa [syntheticIri] using Ne.symm different
  · exact ⟨rfl, rfl, rfl⟩

/-- What a name leads to once it is defined. -/
def target (view : List (String × String)) (name : String) : Option (String × String) :=
  leads (defined view name) name

/-- A defined name leads to the entry with it as IRI, else to the first with it as local name;
the new entry is that one unless another one has its IRI. -/
theorem target_eq (view : List (String × String)) {name : String} (isName : IsName name) :
    target view name = (iriEntry view name).or
      (if (iriEntry view (syntheticIri name)).or (nameEntry view name) = none then
        some (syntheticIri name, name)
      else nameEntry view name) := by
  unfold target leads defined
  split
  · next nothing =>
    have unnamed := (Option.or_eq_none_iff.mp nothing).2
    have sameIri : iriEntry (view ++ [(syntheticIri name, name)]) name = iriEntry view name := by
      apply find_append_of_ne
      simpa using Ne.symm (localOf_ne_synthetic isName.2)
    have added : nameEntry (view ++ [(syntheticIri name, name)]) name =
        some (syntheticIri name, name) := by
      unfold nameEntry at unnamed ⊢
      rw [List.find?_append, unnamed]
      simp
    rw [sameIri, added]
  · rfl

/-- Defining other names before does not change where a name leads. -/
theorem target_defined {view : List (String × String)} {name other : String}
    (isName : IsName name) (different : name ≠ other) :
    target (defined view other) name = target view name := by
  obtain ⟨iri, byName, synthetic⟩ := entries_defined view isName different
  rw [target_eq _ isName, target_eq _ isName, iri, byName, synthetic]

end CaracalDB
