import CaracalDB.CatalogFile

/-!
# Writing and reading the catalog

Every record is read back from the dictionary that it is written to: numbers and
texts as they are, members of enumerations by their values, None where there is
nothing, and the parameters of types at any depth. So is the catalog from the bytes
of its file.
-/

namespace CaracalDB.Onto

section Codec

variable (c : Conversions)

/-! ## Dictionaries with their keys in order -/

/-- The entry of a key is found wherever it stands. -/
theorem lookup_insert (key name : String) (value : Value) (entries : List (String × Value)) :
    lookup key (entries.orderedInsert keyOrder (name, value)) =
      lookup key ((name, value) :: entries) := by
  induction entries with
  | nil => rfl
  | cons first entries inductionHypothesis =>
    obtain ⟨other, stored⟩ := first
    rw [List.orderedInsert_cons]
    by_cases earlier : keyOrder (name, value) (other, stored)
    · rw [if_pos earlier]
    · rw [if_neg earlier, lookup_cons, inductionHypothesis, lookup_cons, lookup_cons, lookup_cons]
      by_cases here : other = key
      · have differs : name ≠ key := by
          rintro rfl
          exact earlier (here ▸ String.le_refl other)
        rw [if_pos here, if_neg differs, if_pos here]
      · rw [if_neg here, if_neg here]

theorem lookup_sorted (key : String) (entries : List (String × Value)) :
    lookup key (sortedEntries entries) = (lookup key entries).map sorted := by
  induction entries with
  | nil => rfl
  | cons first entries inductionHypothesis =>
    obtain ⟨name, value⟩ := first
    rw [sortedEntries, lookup_insert, lookup_cons, lookup_cons, inductionHypothesis]
    split_ifs <;> rfl

theorem entry_dict (key : String) (entries : List (String × Value)) {value : Value}
    (found : lookup key entries = some value) :
    entry key (sorted (.dict entries)) = .ok (sorted value) := by
  rw [sorted, entry, lookup_sorted, found]
  rfl

theorem entryOr_dict (key : String) (default : Value) (entries : List (String × Value))
    {value : Value} (found : lookup key entries = some value) :
    entryOr key default (sorted (.dict entries)) = .ok (sorted value) := by
  rw [sorted, entryOr, lookup_sorted, found]
  rfl

/-! ## What is read back -/

@[simp] theorem toInt_int (number : Int) : c.toInt (sorted (.int number)) = .ok number := rfl

@[simp] theorem optionalStr_ofOptional (text : Option String) :
    c.optionalStr (sorted (ofOptional text)) = text := by
  cases text <;> rfl

/-- Items that are read back one by one are read back as a list. -/
theorem mapM_written {Item : Type} {read : Value → Except Raised Item} {write : Item → Value}
    (items : List Item) (back : ∀ item ∈ items, read (sorted (write item)) = .ok item) :
    (sortedItems (items.map write)).mapM read = .ok items := by
  induction items with
  | nil => rfl
  | cons item items inductionHypothesis =>
    rw [List.map_cons, sortedItems, List.mapM_cons, back item List.mem_cons_self,
      inductionHypothesis fun other member => back other (List.mem_cons_of_mem _ member)]
    rfl

theorem records_dict {Item : Type} {read : Value → Except Raised Item} {write : Item → Value}
    {items : List Item} (back : ∀ item ∈ items, read (sorted (write item)) = .ok item) {key : String}
    {entries : List (String × Value)} (found : lookup key entries = some (.list (items.map write))) :
    records read key (sorted (.dict entries)) = .ok items := by
  rw [records, entryOr_dict key _ entries found, ok_bind, sorted, itemsOf, ok_bind]
  exact mapM_written items back

theorem texts_dict {list : List String} {key : String} {entries : List (String × Value)}
    (found : lookup key entries = some (ofTexts list)) :
    texts c key (sorted (.dict entries)) = .ok list := by
  have back : ∀ text ∈ list, (fun item => Except.ok (c.toStr item)) (sorted (Value.str text)) =
      (.ok text : Except Raised String) := fun _ _ => rfl
  exact records_dict back found

/-- A member is read back from its value. -/
theorem memberOf_numberOf {Member : Type} [DecidableEq Member] (name : String)
    {members : List Member} {member : Member} (among : member ∈ members) :
    memberOf c name members (sorted (numberOf members member)) = .ok member := by
  have found : members[members.idxOf member]? = some member := List.getElem?_idxOf among
  rw [memberOf, numberOf, toInt_int, ok_bind, if_pos (Int.natCast_nonneg _), Int.toNat_natCast,
    found]

theorem TypeKind.mem_members (kind : TypeKind) : kind ∈ TypeKind.members := by
  cases kind <;> decide

theorem PropertyKind.mem_members (kind : PropertyKind) : kind ∈ PropertyKind.members := by
  cases kind <;> decide

theorem PropertyCharacteristic.mem_members (characteristic : PropertyCharacteristic) :
    characteristic ∈ PropertyCharacteristic.members := by
  cases characteristic <;> decide

theorem ConstraintKind.mem_members (kind : ConstraintKind) : kind ∈ ConstraintKind.members := by
  cases kind <;> decide

theorem IndexKind.mem_members (kind : IndexKind) : kind ∈ IndexKind.members := by
  cases kind <;> decide

theorem SortDirection.mem_members (direction : SortDirection) :
    direction ∈ SortDirection.members := by
  cases direction <;> decide

/-! ## Types -/

theorem toDicts_eq (types : List TypeRef) : TypeRef.toDicts types = types.map TypeRef.toDict := by
  induction types with
  | nil => rfl
  | cons type types inductionHypothesis => rw [TypeRef.toDicts, inductionHypothesis, List.map_cons]

theorem depthOf_lookup {entries : List (String × Value)} {key : String} {value : Value}
    (found : lookup key entries = some value) : depthOf value ≤ depthOfEntries entries := by
  induction entries with
  | nil => cases found
  | cons first entries inductionHypothesis =>
    obtain ⟨name, other⟩ := first
    rw [lookup_cons] at found
    rw [depthOfEntries]
    split_ifs at found
    · cases found
      exact Nat.le_max_left _ _
    · exact (inductionHypothesis found).trans (Nat.le_max_right _ _)

/-- The entries of a type. -/
def typeEntries (kind : TypeKind) (name : Option String) (params : List TypeRef)
    (int_params : List Int) (precision scale : Int) (nullable : Bool) : List (String × Value) :=
  [("kind", numberOf TypeKind.members kind), ("name", ofOptional name),
    ("params", .list (params.map TypeRef.toDict)), ("int_params", .list (int_params.map .int)),
    ("precision", .int precision), ("scale", .int scale), ("nullable", .bool nullable)]

/-- A type is read back when its parameters are. -/
theorem fromDict_entries {kind : TypeKind} {name : Option String} {params : List TypeRef}
    {int_params : List Int} {precision scale : Int} {nullable : Bool} {depth : Nat}
    (back : ∀ type ∈ params, TypeRef.fromDict c depth (sorted type.toDict) = .ok type) :
    TypeRef.fromDict c (depth + 1)
      (sorted (.dict (typeEntries kind name params int_params precision scale nullable))) =
        .ok (.mk kind name params int_params precision scale nullable) := by
  have numbers : ∀ number ∈ int_params, c.toInt (sorted (Value.int number)) = .ok number :=
    fun _ _ => rfl
  rw [TypeRef.fromDict, entryOr_dict "kind" _ _ rfl, ok_bind,
    memberOf_numberOf c _ (TypeKind.mem_members kind), ok_bind, entryOr_dict "name" _ _ rfl, ok_bind,
    optionalStr_ofOptional, records_dict back rfl, ok_bind, records_dict numbers rfl,
    ok_bind, entryOr_dict "precision" _ _ rfl, ok_bind, toInt_int, ok_bind,
    entryOr_dict "scale" _ _ rfl, ok_bind, toInt_int, ok_bind, entryOr_dict "nullable" _ _ rfl,
    ok_bind]
  cases nullable <;> rfl

mutual

/-- A type is read back at any depth that holds it. -/
theorem fromDict_toDict : ∀ (type : TypeRef) (depth : Nat), depthOf (sorted type.toDict) ≤ depth →
    TypeRef.fromDict c depth (sorted type.toDict) = .ok type
  | .mk kind name params int_params precision scale nullable, depth, holds => by
    rw [TypeRef.toDict, toDicts_eq] at holds ⊢
    cases depth with
    | zero => exact absurd holds (Nat.not_succ_le_zero _)
    | succ depth =>
      apply fromDict_entries
      apply fromDict_toDicts params depth
      have params_at : lookup "params" (sortedEntries
          (typeEntries kind name params int_params precision scale nullable)) =
            some (sorted (.list (params.map TypeRef.toDict))) := lookup_sorted "params" _
      have inside := depthOf_lookup params_at
      rw [sorted, depthOf] at inside
      change depthOfEntries (sortedEntries (typeEntries kind name params int_params precision scale
        nullable)) + 1 ≤ depth + 1 at holds
      exact (Nat.le_succ _).trans (inside.trans (Nat.succ_le_succ_iff.mp holds))

theorem fromDict_toDicts : ∀ (types : List TypeRef) (depth : Nat),
    depthOfItems (sortedItems (types.map TypeRef.toDict)) ≤ depth →
      ∀ type ∈ types, TypeRef.fromDict c depth (sorted type.toDict) = .ok type
  | [], _, _ => fun _ member => absurd member List.not_mem_nil
  | first :: types, depth, holds => by
    rw [List.map_cons, sortedItems, depthOfItems, Nat.max_le] at holds
    intro type member
    rcases List.mem_cons.mp member with same | later
    · rw [same]
      exact fromDict_toDict first depth holds.1
    · exact fromDict_toDicts types depth holds.2 type later

end

@[simp] theorem typeRef_toDict (type : TypeRef) : typeRef c (sorted type.toDict) = .ok type :=
  fromDict_toDict c type _ (Nat.le_refl _)

@[simp] theorem optionalTypeRef_toDict (type : Option TypeRef) :
    optionalTypeRef c (sorted ((type.map TypeRef.toDict).getD .null)) = .ok type := by
  cases type with
  | none => rfl
  | some type =>
    obtain ⟨kind, name, params, int_params, precision, scale, nullable⟩ := type
    show (typeRef c (sorted (TypeRef.mk kind name params int_params precision scale
      nullable).toDict)).map some = _
    rw [typeRef_toDict]
    rfl

/-! ## Records -/

theorem ConstraintDef.fromDict_toDict (constraint : ConstraintDef) :
    ConstraintDef.fromDict c (sorted constraint.toDict) = .ok constraint := by
  rw [ConstraintDef.toDict, ConstraintDef.fromDict, entry_dict "kind" _ rfl, ok_bind,
    memberOf_numberOf c _ (ConstraintKind.mem_members _), ok_bind, entryOr_dict "expr" _ _ rfl,
    ok_bind, optionalStr_ofOptional]
  rfl

theorem FieldDef.fromDict_toDict (field : FieldDef) :
    FieldDef.fromDict c (sorted field.toDict) = .ok field := by
  rw [FieldDef.toDict, FieldDef.fromDict, entry_dict "name" _ rfl, ok_bind, entry_dict "type" _ rfl,
    ok_bind, typeRef_toDict, ok_bind,
    records_dict (fun item _ => ConstraintDef.fromDict_toDict c item) rfl, ok_bind,
    entryOr_dict "default_expr" _ _ rfl, ok_bind, optionalStr_ofOptional,
    entryOr_dict "doc" _ _ rfl, ok_bind, optionalStr_ofOptional]
  rfl

theorem ClassDef.fromDict_toDict (cls : ClassDef) :
    ClassDef.fromDict c (sorted cls.toDict) = .ok cls := by
  rw [ClassDef.toDict, ClassDef.fromDict, entry_dict "cid" _ rfl, ok_bind, toInt_int, ok_bind,
    entry_dict "iri" _ rfl, ok_bind, entryOr_dict "local_name" _ _ rfl, ok_bind,
    optionalStr_ofOptional, texts_dict c rfl, ok_bind,
    records_dict (fun item _ => FieldDef.fromDict_toDict c item) rfl, ok_bind,
    entryOr_dict "doc" _ _ rfl, ok_bind, optionalStr_ofOptional]
  rfl

theorem PropertyDef.fromDict_toDict (property : PropertyDef) :
    PropertyDef.fromDict c (sorted property.toDict) = .ok property := by
  rw [PropertyDef.toDict, PropertyDef.fromDict, entryOr_dict "range_type" _ _ rfl, ok_bind,
    entry_dict "pid" _ rfl, ok_bind, toInt_int, ok_bind, entry_dict "iri" _ rfl, ok_bind,
    entryOr_dict "local_name" _ _ rfl, ok_bind, optionalStr_ofOptional, entryOr_dict "kind" _ _ rfl,
    ok_bind, memberOf_numberOf c _ (PropertyKind.mem_members _), ok_bind, texts_dict c rfl, ok_bind,
    texts_dict c rfl, ok_bind, optionalTypeRef_toDict, ok_bind, texts_dict c rfl, ok_bind,
    records_dict (fun item _ => memberOf_numberOf c _ (PropertyCharacteristic.mem_members item)) rfl,
    ok_bind, records_dict (fun item _ => FieldDef.fromDict_toDict c item) rfl, ok_bind,
    entryOr_dict "inverse_iri" _ _ rfl, ok_bind, optionalStr_ofOptional, entryOr_dict "doc" _ _ rfl,
    ok_bind, optionalStr_ofOptional]
  rfl

theorem GraphDef.fromDict_toDict (graph : GraphDef) :
    GraphDef.fromDict c (sorted graph.toDict) = .ok graph := by
  rw [GraphDef.toDict, GraphDef.fromDict, entry_dict "gid" _ rfl, ok_bind, toInt_int, ok_bind,
    entry_dict "name" _ rfl, ok_bind, texts_dict c rfl, ok_bind, texts_dict c rfl, ok_bind,
    texts_dict c rfl, ok_bind, entryOr_dict "doc" _ _ rfl, ok_bind, optionalStr_ofOptional]
  rfl

theorem IndexOptionDef.fromDict_toDict (option : IndexOptionDef) :
    IndexOptionDef.fromDict c (sorted option.toDict) = .ok option := by
  rw [IndexOptionDef.toDict, IndexOptionDef.fromDict, entry_dict "key" _ rfl, ok_bind,
    entryOr_dict "value" _ _ rfl, ok_bind, optionalStr_ofOptional]
  rfl

theorem IndexDef.fromDict_toDict (index : IndexDef) :
    IndexDef.fromDict c (sorted index.toDict) = .ok index := by
  rw [IndexDef.toDict, IndexDef.fromDict, entry_dict "iid" _ rfl, ok_bind, toInt_int, ok_bind,
    entry_dict "name" _ rfl, ok_bind, entry_dict "kind" _ rfl, ok_bind,
    memberOf_numberOf c _ (IndexKind.mem_members _), ok_bind,
    entryOr_dict "target_class_iri" _ _ rfl, ok_bind, optionalStr_ofOptional,
    entryOr_dict "target_property_iri" _ _ rfl, ok_bind, optionalStr_ofOptional, texts_dict c rfl,
    ok_bind, entryOr_dict "sort" _ _ rfl, ok_bind,
    memberOf_numberOf c _ (SortDirection.mem_members _), ok_bind,
    records_dict (fun item _ => IndexOptionDef.fromDict_toDict c item) rfl, ok_bind,
    entryOr_dict "unique" _ _ rfl, ok_bind]
  rfl

theorem PrefixDef.fromDict_toDict (declared : PrefixDef) :
    PrefixDef.fromDict c (sorted declared.toDict) = .ok declared := by
  rw [PrefixDef.toDict, PrefixDef.fromDict, entry_dict "prefix" _ rfl, ok_bind,
    entry_dict "iri" _ rfl, ok_bind]
  rfl

theorem OntologyDef.fromDict_toDict (ontology : OntologyDef) :
    OntologyDef.fromDict c (sorted ontology.toDict) = .ok ontology := by
  rw [OntologyDef.toDict, OntologyDef.fromDict, entry_dict "iri" _ rfl, ok_bind,
    entryOr_dict "base_iri" _ _ rfl, ok_bind, optionalStr_ofOptional,
    records_dict (fun item _ => PrefixDef.fromDict_toDict c item) rfl, ok_bind, texts_dict c rfl,
    ok_bind, texts_dict c rfl, ok_bind, texts_dict c rfl, ok_bind, entryOr_dict "doc" _ _ rfl,
    ok_bind, optionalStr_ofOptional]
  rfl

/-- The catalog is read back, whatever the time. -/
theorem Catalog.fromDict_toDict (now : String) (catalog : Catalog) :
    Catalog.fromDict c now (sorted catalog.toDict) = .ok catalog := by
  rw [Catalog.toDict, Catalog.fromDict, entryOr_dict "format_version" _ _ rfl, ok_bind, toInt_int,
    ok_bind, entryOr_dict "catalog_id" _ _ rfl, ok_bind, optionalStr_ofOptional,
    entryOr_dict "created_at" _ _ rfl, ok_bind, entryOr_dict "updated_at" _ _ rfl, ok_bind,
    records_dict (fun item _ => OntologyDef.fromDict_toDict c item) rfl, ok_bind,
    records_dict (fun item _ => ClassDef.fromDict_toDict c item) rfl, ok_bind,
    records_dict (fun item _ => PropertyDef.fromDict_toDict c item) rfl, ok_bind,
    records_dict (fun item _ => GraphDef.fromDict_toDict c item) rfl, ok_bind,
    records_dict (fun item _ => IndexDef.fromDict_toDict c item) rfl, ok_bind]
  rfl

end Codec

/-! ## The catalog as JSON -/

theorem haveJson_insert (entry : String × Value) (entries : List (String × Value)) :
    haveJson (entries.orderedInsert keyOrder entry) = haveJson (entry :: entries) := by
  induction entries with
  | nil => rfl
  | cons first entries inductionHypothesis =>
    rw [List.orderedInsert_cons]
    split_ifs
    · rfl
    · simp only [haveJson, inductionHypothesis]
      exact Bool.and_left_comm _ _ _

theorem keys_sorted (entries : List (String × Value)) :
    ((sortedEntries entries).map Prod.fst).Perm (entries.map Prod.fst) := by
  induction entries with
  | nil => exact List.Perm.refl _
  | cons first entries inductionHypothesis =>
    obtain ⟨name, value⟩ := first
    rw [sortedEntries]
    have moved := (List.perm_orderedInsert keyOrder (name, sorted value)
      (sortedEntries entries)).map Prod.fst
    exact moved.trans (inductionHypothesis.cons name)

mutual

/-- The order of the keys is nothing to JSON. -/
theorem isJson_sorted : ∀ value : Value, isJson (sorted value) = isJson value
  | .null | .bool _ | .int _ | .float _ | .str _ | .other _ _ => rfl
  | .list items => areJson_sorted items
  | .dict entries => by
    rw [sorted, isJson, isJson, haveJson_sorted entries]
    simp only [(keys_sorted entries).nodup_iff]

theorem areJson_sorted : ∀ items : List Value, areJson (sortedItems items) = areJson items
  | [] => rfl
  | item :: items => by rw [sortedItems, areJson, areJson, isJson_sorted item, areJson_sorted items]

theorem haveJson_sorted : ∀ entries : List (String × Value),
    haveJson (sortedEntries entries) = haveJson entries
  | [] => rfl
  | (name, value) :: entries => by
    rw [sortedEntries, haveJson_insert, haveJson, haveJson, isJson_sorted value,
      haveJson_sorted entries]

end

theorem areJson_iff (items : List Value) :
    areJson items = true ↔ ∀ item ∈ items, isJson item = true := by
  induction items with
  | nil => simp [areJson]
  | cons item items inductionHypothesis => simp [areJson, inductionHypothesis]

/-- A list of records is JSON when the records are. -/
theorem areJson_map {Item : Type} {write : Item → Value}
    (each : ∀ item, isJson (write item) = true) (items : List Item) :
    areJson (items.map write) = true := by
  rw [areJson_iff]
  intro value member
  obtain ⟨item, _, rfl⟩ := List.mem_map.mp member
  exact each item

@[simp] theorem isJson_ofOptional (text : Option String) : isJson (ofOptional text) = true := by
  cases text <;> rfl

@[simp] theorem isJson_ofTexts (list : List String) : isJson (ofTexts list) = true :=
  areJson_map (fun _ => rfl) list

@[simp] theorem isJson_numberOf {Member : Type} [DecidableEq Member] (members : List Member)
    (member : Member) : isJson (numberOf members member) = true := rfl

/-- A dictionary is JSON when its values are and its keys differ. -/
theorem isJson_dict {entries : List (String × Value)} (values : haveJson entries = true)
    (keys : (entries.map Prod.fst).Nodup) : isJson (.dict entries) = true := by
  rw [isJson, values, decide_eq_true keys]
  rfl

mutual

theorem TypeRef.isJson_toDict : ∀ type : TypeRef, isJson type.toDict = true
  | .mk kind name params int_params precision scale nullable => by
    rw [TypeRef.toDict]
    have inner := TypeRef.areJson_toDicts params
    have numbers : areJson (int_params.map .int) = true := areJson_map (fun _ => rfl) int_params
    refine isJson_dict ?_ (by simp)
    simp [haveJson, isJson, inner, numbers]

theorem TypeRef.areJson_toDicts : ∀ types : List TypeRef, areJson (TypeRef.toDicts types) = true
  | [] => rfl
  | type :: types => by
    rw [TypeRef.toDicts, areJson, TypeRef.isJson_toDict type, TypeRef.areJson_toDicts types]
    rfl

end

theorem ConstraintDef.isJson_toDict (constraint : ConstraintDef) : isJson constraint.toDict = true :=
  isJson_dict (by simp [haveJson]) (by simp)

theorem FieldDef.isJson_toDict (field : FieldDef) : isJson field.toDict = true :=
  isJson_dict
    (by simp [haveJson, isJson, areJson_map ConstraintDef.isJson_toDict, TypeRef.isJson_toDict])
    (by simp)

theorem ClassDef.isJson_toDict (cls : ClassDef) : isJson cls.toDict = true :=
  isJson_dict (by simp [haveJson, isJson, areJson_map FieldDef.isJson_toDict]) (by simp)

theorem isJson_optionalTypeRef (type : Option TypeRef) :
    isJson ((type.map TypeRef.toDict).getD .null) = true := by
  cases type with
  | none => rfl
  | some type => exact type.isJson_toDict

theorem PropertyDef.isJson_toDict (property : PropertyDef) : isJson property.toDict = true :=
  isJson_dict
    (by simp [haveJson, isJson, areJson_map FieldDef.isJson_toDict, isJson_optionalTypeRef,
      areJson_map (isJson_numberOf PropertyCharacteristic.members)])
    (by simp)

theorem GraphDef.isJson_toDict (graph : GraphDef) : isJson graph.toDict = true :=
  isJson_dict (by simp [haveJson, isJson]) (by simp)

theorem IndexOptionDef.isJson_toDict (option : IndexOptionDef) : isJson option.toDict = true :=
  isJson_dict (by simp [haveJson, isJson]) (by simp)

theorem IndexDef.isJson_toDict (index : IndexDef) : isJson index.toDict = true :=
  isJson_dict (by simp [haveJson, isJson, areJson_map IndexOptionDef.isJson_toDict]) (by simp)

theorem PrefixDef.isJson_toDict (declared : PrefixDef) : isJson declared.toDict = true :=
  isJson_dict (by simp [haveJson, isJson]) (by simp)

theorem OntologyDef.isJson_toDict (ontology : OntologyDef) : isJson ontology.toDict = true :=
  isJson_dict (by simp [haveJson, isJson, areJson_map PrefixDef.isJson_toDict]) (by simp)

theorem Catalog.isJson_toDict (catalog : Catalog) : isJson catalog.toDict = true :=
  isJson_dict
    (by simp [haveJson, isJson, areJson_map OntologyDef.isJson_toDict,
      areJson_map ClassDef.isJson_toDict, areJson_map PropertyDef.isJson_toDict,
      areJson_map GraphDef.isJson_toDict, areJson_map IndexDef.isJson_toDict])
    (by simp)

/-! ## The bytes -/

/-- The catalog is read back from the bytes that it is written to. -/
theorem fromBytes_toBytes {Text : Type} (json : Json Text) (c : Conversions) (now : String)
    (catalog : Catalog) : Catalog.fromBytes json c now (catalog.toBytes json) = .ok catalog := by
  have plain : isJson (envelope catalog) = true :=
    isJson_dict (by simp [haveJson, isJson, catalog.isJson_toDict]) (by simp)
  have loaded : json.loads (catalog.toBytes json).text = .ok (sorted (envelope catalog)) :=
    json.loads_dumps _ ((isJson_sorted _).trans plain)
  have encoding : entryOr "encoding" .null (sorted (envelope catalog)) =
      .ok (sorted (.str CATALOG_ENCODING)) := entryOr_dict "encoding" _ _ rfl
  have held : entry "catalog" (sorted (envelope catalog)) = .ok (sorted catalog.toDict) :=
    entry_dict "catalog" _ rfl
  have magic : ¬ (catalog.toBytes json).header ≠ MAGIC := fun differs => differs rfl
  have known : ¬ sorted (.str CATALOG_ENCODING) ≠ .str CATALOG_ENCODING :=
    fun differs => differs rfl
  rw [Catalog.fromBytes, if_neg magic, loaded, ok_bind, encoding, ok_bind, if_neg known, held,
    ok_bind]
  exact Catalog.fromDict_toDict c now catalog

end CaracalDB.Onto
