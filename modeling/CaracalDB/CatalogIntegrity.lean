import CaracalDB.CatalogCodec
import CaracalDB.CatalogRegistry

/-!
# Numbers and names of the catalog

Whatever is registered, defined, saved and loaded, the numbers of each kind differ,
so do their IRIs or names, and a number stays with the IRI or the name that it was
given to. What is refused leaves the catalog as it was.
-/

namespace CaracalDB.Onto

/-! ## Numbered names -/

/-- The kinds of items that have numbers. -/
inductive Kind where
  | classes | properties | graphs | indexes
deriving DecidableEq

/-- The numbers and IRIs or names of a kind, in their order. -/
def Catalog.labels (catalog : Catalog) : Kind → List (Int × String)
  | .classes => catalog.classes.map fun item => (item.cid, item.iri)
  | .properties => catalog.properties.map fun item => (item.pid, item.iri)
  | .graphs => catalog.graphs.map fun item => (item.gid, item.name)
  | .indexes => catalog.indexes.map fun item => (item.iid, item.name)

/-- No number and no name is given twice. -/
def Distinct (labels : List (Int × String)) : Prop :=
  (labels.map Prod.fst).Nodup ∧ (labels.map Prod.snd).Nodup

/-- In every kind, numbers differ and so do names. -/
def Sound (catalog : Catalog) : Prop := ∀ kind, Distinct (catalog.labels kind)

/-- Every number keeps its name and its place. -/
def Kept (before after : Catalog) : Prop :=
  ∀ kind, before.labels kind <+: after.labels kind

/-- What every change of a sound catalog keeps. -/
def Grows (before after : Catalog) : Prop := Sound before → Sound after ∧ Kept before after

instance : IsPreorder Catalog Grows where
  refl _ sound := ⟨sound, fun _ => List.prefix_rfl⟩
  trans _ _ _ first second sound :=
    have middle := first sound
    have last := second middle.1
    ⟨last.1, fun kind => (middle.2 kind).trans (last.2 kind)⟩

/-- The same labels are as good. -/
theorem grows_of_same {before after : Catalog} (same : after.labels = before.labels) :
    Grows before after := by
  intro sound
  constructor
  · intro kind
    rw [same]
    exact sound kind
  · intro kind
    exact (congrFun same kind).symm ▸ List.prefix_rfl

/-- A new label behind the others keeps them all apart. -/
theorem distinct_append {labels : List (Int × String)} {id : Int} {name : String}
    (distinct : Distinct labels) (newId : id ∉ labels.map Prod.fst)
    (newName : name ∉ labels.map Prod.snd) : Distinct (labels ++ [(id, name)]) := by
  rw [Distinct, List.map_append, List.map_append]
  exact ⟨List.Nodup.append distinct.1 (List.nodup_singleton _) (by simpa using newId),
    List.Nodup.append distinct.2 (List.nodup_singleton _) (by simpa using newName)⟩

theorem grows_of_added {before after : Catalog} (kind : Kind) {id : Int} {name : String}
    (newId : id ∉ (before.labels kind).map Prod.fst)
    (newName : name ∉ (before.labels kind).map Prod.snd)
    (added : after.labels kind = before.labels kind ++ [(id, name)])
    (others : ∀ other, other ≠ kind → after.labels other = before.labels other) :
    Grows before after := by
  intro sound
  constructor
  · intro other
    by_cases same : other = kind
    · subst same
      rw [added]
      exact distinct_append (sound other) newId newName
    · rw [others other same]
      exact sound other
  · intro other
    by_cases same : other = kind
    · subst same
      rw [added]
      exact List.prefix_append _ _
    · exact (others other same).symm ▸ List.prefix_rfl

/-- The next number is none of the numbers given out. -/
theorem nextId_fresh (values : List Int) : nextId values ∉ values := by
  intro member
  cases most : values.max? with
  | none =>
    rw [List.max?_eq_none_iff.mp most] at member
    cases member
  | some value =>
    have bound := (List.max?_eq_some_iff.mp most).2 _ member
    rw [nextId, most, Option.getD_some] at bound
    omega

/-! ## Registering -/

theorem ensureUnique_ok {Item : Type} {kind value : String} {items : List Item}
    {attr : Item → String} {answer : Unit}
    (passes : ensureUnique kind value items attr = .ok answer) : value ∉ items.map attr := by
  intro taken
  obtain ⟨item, member, same⟩ := List.mem_map.mp taken
  rw [ensureUnique] at passes
  cases found : findByAttr items attr value with
  | some other =>
    rw [found] at passes
    cases passes
  | none => exact List.find?_eq_none.mp found item member (by simpa using same)

/-- A registration that is refused changes nothing; one that is not adds an item with the next
number, under a name that was free. -/
theorem run_registerItem (now : String) {Item : Type} (kind value : String)
    (items : Catalog → List Item) (attr : Item → String) (id : Item → Int) (make : Int → Item)
    (store : List Item → Catalog → Catalog) (catalog : Catalog) :
    (∃ error, Call.run (registerItem now kind value items attr id make store) catalog =
      (.error error, catalog)) ∨
    (value ∉ (items catalog).map attr ∧
      Call.run (registerItem now kind value items attr id make store) catalog =
        (.ok (make (nextId ((items catalog).map id))),
          { store (items catalog ++ [make (nextId ((items catalog).map id))]) catalog with
            updated_at := now })) := by
  rw [registerItem, Call.run_bind_ok _ (Call.run_current catalog)]
  cases checked : ensureUnique kind value (items catalog) attr with
  | error error =>
    refine .inl ⟨error, ?_⟩
    exact Call.run_bind_error _ rfl
  | ok answer => exact .inr ⟨ensureUnique_ok checked, rfl⟩

section Registrations

variable (now : String)

/-- A registration adds one label to its kind and none to the others. -/
theorem registerItem_grows (among : Kind) {Item : Type} (kind value : String)
    {items : Catalog → List Item} {attr : Item → String} {id : Item → Int} {make : Int → Item}
    {store : List Item → Catalog → Catalog}
    (listed : ∀ catalog, catalog.labels among = (items catalog).map fun item => (id item, attr item))
    (made : ∀ number, id (make number) = number ∧ attr (make number) = value)
    (stored : ∀ list catalog, items { store list catalog with updated_at := now } = list)
    (others : ∀ list catalog kind, kind ≠ among →
      Catalog.labels { store list catalog with updated_at := now } kind = catalog.labels kind) :
    Call.Relates Grows (registerItem now kind value items attr id make store) := by
  intro catalog
  rcases run_registerItem now kind value items attr id make store catalog with
    ⟨error, refused⟩ | ⟨free, done⟩
  · rw [refused]
    exact refl catalog
  · rw [done]
    have numbers : (catalog.labels among).map Prod.fst = (items catalog).map id := by
      simp [listed, Function.comp_def]
    have names : (catalog.labels among).map Prod.snd = (items catalog).map attr := by
      simp [listed, Function.comp_def]
    have unused : nextId ((items catalog).map id) ∉ (catalog.labels among).map Prod.fst := by
      rw [numbers]
      exact nextId_fresh _
    refine grows_of_added among unused (names ▸ free) ?_ (others _ catalog)
    rw [listed, listed, stored, List.map_append, List.map_singleton, (made _).1, (made _).2]

theorem registerClass_grows (iri : String) (local_name : Option String)
    (superclass_iris : List String) (fields : List FieldDef) (doc : Option String) :
    Call.Relates Grows (registerClass now iri local_name superclass_iris fields doc) :=
  registerItem_grows now .classes "class" iri (fun _ => rfl) (fun _ => ⟨rfl, rfl⟩)
    (fun _ _ => rfl) fun _ _ kind differs => by cases kind <;> first | rfl | exact absurd rfl differs

theorem registerProperty_grows (iri : String) (local_name : Option String) (kind : PropertyKind)
    (superproperty_iris domain_iris : List String) (range_type : Option TypeRef)
    (range_iris : List String) (characteristics : List PropertyCharacteristic)
    (fields : List FieldDef) (inverse_iri doc : Option String) :
    Call.Relates Grows (registerProperty now iri local_name kind superproperty_iris domain_iris
      range_type range_iris characteristics fields inverse_iri doc) :=
  registerItem_grows now .properties "property" iri (fun _ => rfl) (fun _ => ⟨rfl, rfl⟩)
    (fun _ _ => rfl) fun _ _ kind differs => by cases kind <;> first | rfl | exact absurd rfl differs

theorem registerGraph_grows (name : String)
    (ontology_iris class_iris property_iris : List String) (doc : Option String) :
    Call.Relates Grows (registerGraph now name ontology_iris class_iris property_iris doc) :=
  registerItem_grows now .graphs "graph" name (fun _ => rfl) (fun _ => ⟨rfl, rfl⟩)
    (fun _ _ => rfl) fun _ _ kind differs => by cases kind <;> first | rfl | exact absurd rfl differs

theorem registerIndex_grows (name : String) (kind : IndexKind)
    (target_class_iri target_property_iri : Option String) (fields : List String)
    (sort : SortDirection) (options : List IndexOptionDef) (unique : Bool) :
    Call.Relates Grows (registerIndex now name kind target_class_iri target_property_iri fields sort
      options unique) :=
  registerItem_grows now .indexes "index" name (fun _ => rfl) (fun _ => ⟨rfl, rfl⟩)
    (fun _ _ => rfl) fun _ _ kind differs => by cases kind <;> first | rfl | exact absurd rfl differs

/-! ## Defining -/

/-- A class of the catalog is merged in its place, under its number and IRI. -/
theorem mergeClass_grows {catalog : Catalog} {cls : ClassDef} (member : cls ∈ catalog.classes)
    (local_name : String) (superclass_iris : List String) :
    Grows catalog (Call.run (mergeClass now cls local_name superclass_iris) catalog).2 := by
  rw [mergeClass]
  split_ifs with unchanged
  · exact refl catalog
  · intro sound
    refine grows_of_same ?_ sound
    funext kind
    cases kind with
    | classes =>
      show List.map _ (List.map _ catalog.classes) = List.map _ catalog.classes
      rw [List.map_map]
      apply List.map_congr_left
      intro item present
      by_cases same : item.cid = cls.cid
      · have numbers := (sound .classes).1
        rw [Catalog.labels, List.map_map] at numbers
        have identical : item = cls := List.inj_on_of_nodup_map numbers present member same
        simp [identical]
      · simp [same]
    | properties | graphs | indexes => rfl

theorem defineClass_grows (name : String) (iri : Option String) (superclass_iris : List String) :
    Call.Relates Grows (defineClass now name iri superclass_iris) := by
  intro catalog
  rw [defineClass, Call.run_bind_ok _ (Call.run_current catalog)]
  cases byIri : findByAttr catalog.classes ClassDef.iri (textOr iri (syntheticIri name)) with
  | some existing => exact mergeClass_grows now (List.mem_of_find?_eq_some byIri) name _
  | none =>
    cases byName : catalog.classes.find? fun candidate => candidate.localName = name with
    | some candidate => exact mergeClass_grows now (List.mem_of_find?_eq_some byName) name _
    | none => exact registerClass_grows now _ _ _ _ _ catalog

theorem defineProperty_grows (name : String) (iri : Option String) :
    Call.Relates Grows (defineProperty now name iri) := by
  intro catalog
  rw [defineProperty, Call.run_bind_ok _ (Call.run_current catalog)]
  cases findByAttr catalog.properties PropertyDef.iri (textOr iri (syntheticIri name)) with
  | some existing => exact refl catalog
  | none =>
    cases catalog.properties.find? fun candidate => candidate.localName = name with
    | some candidate => exact refl catalog
    | none => exact registerProperty_grows now _ _ _ _ _ _ _ _ _ _ _ catalog

end Registrations

/-! ## Refusing -/

/-- A call that raises leaves the catalog as it was. -/
def Harmless {Answer : Type} (call : Change Answer) : Prop :=
  ∀ catalog error after, Call.run call catalog = (.error error, after) → after = catalog

theorem Harmless.discard {Answer : Type} {call : Change Answer} (harmless : Harmless call) :
    Harmless (do let _ ← call) := by
  intro catalog error after raises
  rw [Call.run_bind] at raises
  cases ends : Call.run call catalog with
  | mk result last =>
    rw [ends] at raises
    cases result with
    | ok value => cases raises
    | error other =>
      cases raises
      exact harmless catalog error after ends

section Refusals

variable (now : String)

theorem registerItem_harmless {Item : Type} (kind value : String) (items : Catalog → List Item)
    (attr : Item → String) (id : Item → Int) (make : Int → Item)
    (store : List Item → Catalog → Catalog) :
    Harmless (registerItem now kind value items attr id make store) := by
  intro catalog error after raises
  rcases run_registerItem now kind value items attr id make store catalog with
    ⟨other, refused⟩ | ⟨_, done⟩
  · rw [refused] at raises
    cases raises
    rfl
  · rw [done] at raises
    cases raises

theorem mergeClass_harmless (cls : ClassDef) (local_name : String) (superclass_iris : List String) :
    Harmless (mergeClass now cls local_name superclass_iris) := by
  intro catalog error after raises
  rw [mergeClass] at raises
  split_ifs at raises <;> cases raises

theorem defineClass_harmless (name : String) (iri : Option String) (superclass_iris : List String) :
    Harmless (defineClass now name iri superclass_iris) := by
  intro catalog error after raises
  rw [defineClass, Call.run_bind_ok _ (Call.run_current catalog)] at raises
  cases byIri : findByAttr catalog.classes ClassDef.iri (textOr iri (syntheticIri name)) with
  | some existing =>
    rw [byIri] at raises
    exact mergeClass_harmless now _ _ _ catalog error after raises
  | none =>
    rw [byIri] at raises
    cases byName : catalog.classes.find? fun candidate => candidate.localName = name with
    | some candidate =>
      rw [byName] at raises
      exact mergeClass_harmless now _ _ _ catalog error after raises
    | none =>
      rw [byName] at raises
      exact registerItem_harmless now _ _ _ _ _ _ _ catalog error after raises

theorem defineProperty_harmless (name : String) (iri : Option String) :
    Harmless (defineProperty now name iri) := by
  intro catalog error after raises
  rw [defineProperty, Call.run_bind_ok _ (Call.run_current catalog)] at raises
  cases byIri : findByAttr catalog.properties PropertyDef.iri (textOr iri (syntheticIri name)) with
  | some existing =>
    rw [byIri] at raises
    cases raises
  | none =>
    rw [byIri] at raises
    cases byName : catalog.properties.find? fun candidate => candidate.localName = name with
    | some candidate =>
      rw [byName] at raises
      cases raises
    | none =>
      rw [byName] at raises
      exact registerItem_harmless now _ _ _ _ _ _ _ catalog error after raises

end Refusals

/-! ## Runs -/

section Runs

variable {Text : Type} (json : Json Text) (c : Conversions)

/-- Saving and loading gives the catalog back. -/
theorem run_save_and_load (now : String) (catalog : Catalog) :
    Call.run (Operation.run json c now .save_and_load) catalog = (.ok (), catalog) := by
  rw [Operation.run, Call.run_bind_ok _ (Call.run_current catalog), fromBytes_toBytes]
  rfl

/-- One operation keeps numbers and names apart and in their places. -/
theorem operation_grows (now : String) (operation : Operation) :
    Call.Relates Grows (operation.run json c now) := by
  cases operation with
  | register_class => exact (registerClass_grows now _ _ _ _ _).bind fun _ => .pure ()
  | register_property =>
    exact (registerProperty_grows now _ _ _ _ _ _ _ _ _ _ _).bind fun _ => .pure ()
  | register_graph => exact (registerGraph_grows now _ _ _ _ _).bind fun _ => .pure ()
  | register_index => exact (registerIndex_grows now _ _ _ _ _ _ _ _).bind fun _ => .pure ()
  | define_class => exact (defineClass_grows now _ _ _).bind fun _ => .pure ()
  | define_property => exact (defineProperty_grows now _ _).bind fun _ => .pure ()
  | save_and_load =>
    intro catalog
    rw [run_save_and_load]
    exact refl catalog

/-- A run keeps numbers and names apart and in their places. -/
theorem afterAll_grows (operations : List (String × Operation)) (catalog : Catalog) :
    Grows catalog (afterAll json c catalog operations) := by
  induction operations generalizing catalog with
  | nil => exact refl catalog
  | cons operation operations inductionHypothesis =>
    exact IsTrans.trans _ _ _ (operation_grows json c operation.1 operation.2 catalog)
      (inductionHypothesis (operated json c catalog operation))

theorem empty_sound (catalog_id : Option String) (now : String) :
    Sound (Catalog.empty catalog_id now) := by
  intro kind
  cases kind <;> exact ⟨List.nodup_nil, List.nodup_nil⟩

theorem operation_harmless (now : String) (operation : Operation) :
    Harmless (operation.run json c now) := by
  cases operation with
  | register_class => exact (registerItem_harmless now _ _ _ _ _ _ _).discard
  | register_property => exact (registerItem_harmless now _ _ _ _ _ _ _).discard
  | register_graph => exact (registerItem_harmless now _ _ _ _ _ _ _).discard
  | register_index => exact (registerItem_harmless now _ _ _ _ _ _ _).discard
  | define_class => exact (defineClass_harmless now _ _ _).discard
  | define_property => exact (defineProperty_harmless now _ _).discard
  | save_and_load =>
    intro catalog error after raises
    rw [run_save_and_load] at raises
    cases raises

/-- In every run of a new catalog, numbers and names stay apart and numbers keep their names; what
is refused changes nothing, and every catalog is read back from its bytes. -/
theorem catalog_integrity (catalog_id : Option String) (created : String) :
    (∀ operations, Sound (afterAll json c (Catalog.empty catalog_id created) operations)) ∧
    (∀ operations further, Kept (afterAll json c (Catalog.empty catalog_id created) operations)
      (afterAll json c (Catalog.empty catalog_id created) (operations ++ further))) ∧
    (∀ catalog operation error, (Call.run (operation.2.run json c operation.1) catalog).1 =
      .error error → operated json c catalog operation = catalog) ∧
    ∀ catalog now, Catalog.fromBytes json c now (catalog.toBytes json) = .ok catalog := by
  have sound := fun operations =>
    (afterAll_grows json c operations _ (empty_sound catalog_id created)).1
  refine ⟨sound, ?_, ?_, fun catalog now => fromBytes_toBytes json c now catalog⟩
  · intro operations further
    rw [afterAll, afterAll, List.foldl_append]
    exact (afterAll_grows json c further _ (sound operations)).2
  · intro catalog operation error raises
    exact operation_harmless json c operation.1 operation.2 catalog error _ (Prod.ext raises rfl)

/-- A class that is defined is not registered again. -/
theorem defined_not_registered :
    let plain : Json Value := ⟨id, .ok, fun _ _ => rfl⟩
    let conversions : Conversions :=
      ⟨fun _ => .error (.typeError "int"), fun _ => "", fun _ _ => .invalidKind⟩
    let catalog := operated plain conversions (Catalog.empty none "2026-01-01")
      ("2026-01-02", .define_class "Gene" none [])
    operated plain conversions catalog
      ("2026-01-03", .register_class "caracaldb:local:Gene" none [] [] none) = catalog :=
  (catalog_integrity _ _ none "2026-01-01").2.2.1 _ _ _ rfl

end Runs

end CaracalDB.Onto
