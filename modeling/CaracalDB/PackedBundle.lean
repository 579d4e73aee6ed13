import Mathlib.Data.List.Sort
import Mathlib.Data.List.Infix

/-!
# Packing a directory and unpacking it

A bundle is a directory tree. Packing walks it and records each directory and file
as a member of an archive; unpacking makes the members again, with the directories
above them. The walk passes over a directory that cannot be listed without a word,
so what unpacking gives back is the tree without the entries of such directories.
-/

namespace CaracalDB.Pack

/-- The content of a file, or that a path is a directory. -/
abbrev Content := Option (List UInt8)

mutual

inductive Node where
  | file (bytes : List UInt8)
  | directory (listable : Bool) (entries : Entries)

/-- The entries of a directory, in the order in which it lists them. -/
inductive Entries where
  | nil
  | cons (name : String) (node : Node) (rest : Entries)

end

def Node.content : Node → Content
  | .file bytes => some bytes
  | .directory _ _ => none

def Entries.list : Entries → List (String × Node)
  | .nil => []
  | .cons name node rest => (name, node) :: rest.list

def Entries.names (entries : Entries) : List String := entries.list.map Prod.fst

mutual

/-- What is at a path below a node. -/
def Node.lookup : Node → List String → Option Content
  | .file bytes, [] => some (some bytes)
  | .file _, _ :: _ => none
  | .directory _ _, [] => some none
  | .directory _ entries, name :: path => entries.lookup name path

def Entries.lookup : Entries → String → List String → Option Content
  | .nil, _, _ => none
  | .cons name node rest, wanted, path =>
      if name = wanted then node.lookup path else rest.lookup wanted path

end

mutual

/-- No directory has two entries of one name. -/
def Node.Distinct : Node → Prop
  | .file _ => True
  | .directory _ entries => entries.Distinct

def Entries.Distinct : Entries → Prop
  | .nil => True
  | .cons name node rest => name ∉ rest.names ∧ node.Distinct ∧ rest.Distinct

end

mutual

/-- Every directory with entries can be listed. -/
def Node.Listable : Node → Prop
  | .file _ => True
  | .directory listable entries => (listable = true ∨ entries = .nil) ∧ entries.Listable

def Entries.Listable : Entries → Prop
  | .nil => True
  | .cons _ node rest => node.Listable ∧ rest.Listable

end

mutual

/-- The tree as a walk sees it. -/
def Node.listed : Node → Node
  | .file bytes => .file bytes
  | .directory listable entries => .directory listable (if listable then entries.listed else .nil)

def Entries.listed : Entries → Entries
  | .nil => .nil
  | .cons name node rest => .cons name node.listed rest.listed

end

/-! ## Packing -/

/-- A member of an archive: a directory, or a file and its content. -/
structure Member where
  path : List String
  content : Content
deriving DecidableEq

def isDirectory (entry : String × Node) : Bool := entry.2.content = none

/-- `sorted(...)` of the entries of a kind. -/
def sortedEntries (entries : List (String × Node)) : List (String × Node) :=
  entries.insertionSort fun left right => left.1 ≤ right.1

/-- What the walk records of one directory: its directories, then its files. -/
def recorded (root : List String) (entries : Entries) : List Member :=
  (sortedEntries (entries.list.filter isDirectory) ++
    sortedEntries (entries.list.filter fun entry => !isDirectory entry)).map fun entry =>
      { path := root ++ [entry.1], content := entry.2.content }

mutual

/-- The members that `pack_bundle` writes for a directory, in their order. -/
def Node.members (root : List String) : Node → List Member
  | .file _ => []
  | .directory listable entries =>
      if listable then recorded root entries ++ entries.members root else []

def Entries.members (root : List String) : Entries → List Member
  | .nil => []
  | .cons name node rest => node.members (root ++ [name]) ++ rest.members root

end

/-! ## Unpacking -/

/-- The files and directories below a path. -/
abbrev Files := List String → Option Content

/-- Extracting one member, with the directories above it that do not exist yet. -/
def extract (files : Files) (extracted : Member) : Files := fun path =>
  if path = extracted.path then some extracted.content
  else if path <+: extracted.path ∧ files path = none then some none
  else files path

/-- `zf.extractall(dest)` -/
def extractall (members : List Member) : Files := members.foldl extract fun _ => none

/-- Members of which each path has one, and each directory above a path too. -/
structure Complete (members : List Member) : Prop where
  single : ∀ first ∈ members, ∀ second ∈ members, first.path = second.path → first = second
  parents : ∀ inner ∈ members, ∀ path, path ≠ [] → path <+: inner.path → path ≠ inner.path →
    ∃ outer ∈ members, outer.path = path ∧ outer.content = none

/-- What has been extracted is what the members say. -/
structure Extracted (members done : List Member) (files : Files) : Prop where
  sound : ∀ path content, path ≠ [] → files path = some content →
    { path, content } ∈ members
  complete : ∀ inner ∈ done, files inner.path = some inner.content

theorem Extracted.step {members done : List Member} {files : Files} (whole : Complete members)
    (extracted : Extracted members done files) {next : Member} (among : next ∈ members)
    (earlier : ∀ inner ∈ done, inner ∈ members) :
    Extracted members (done ++ [next]) (extract files next) := by
  constructor
  · intro path content below found
    rw [extract] at found
    split at found
    · next same =>
      cases found
      subst same
      exact among
    · next differs =>
      split at found
      · next above =>
        obtain ⟨outer, isMember, named, isDirectory⟩ :=
          whole.parents next among path below above.1 differs
        rw [Option.some.inj found] at isDirectory
        subst named
        subst isDirectory
        exact isMember
      · exact extracted.sound path content below found
  · intro inner member
    rw [extract]
    rcases List.mem_append.mp member with before | isNext
    · by_cases same : inner.path = next.path
      · rw [if_pos same, whole.single inner (earlier inner before) next among same]
      · have present := extracted.complete inner before
        rw [if_neg same, if_neg, present]
        rw [present]
        exact fun absent => absurd absent.2 (by simp)
    · rw [List.mem_singleton.mp isNext, if_pos rfl]

theorem extracted_fold {members : List Member} (whole : Complete members) (rest done : List Member)
    (files : Files) (all : members = done ++ rest) (extracted : Extracted members done files) :
    Extracted members members (rest.foldl extract files) := by
  induction rest generalizing done files with
  | nil =>
    rw [List.append_nil] at all
    subst all
    exact extracted
  | cons next rest inductionHypothesis =>
    refine inductionHypothesis (done ++ [next]) _ ?_ ?_
    · rw [all, List.append_assoc]
      rfl
    · refine extracted.step whole ?_ ?_
      · rw [all]
        exact List.mem_append_right done List.mem_cons_self
      · intro inner member
        rw [all]
        exact List.mem_append_left _ member

/-- Unpacking gives back exactly the members. -/
theorem extractall_iff {members : List Member} (whole : Complete members) {path : List String}
    (below : path ≠ []) (content : Content) :
    extractall members path = some content ↔ { path, content } ∈ members := by
  have extracted : Extracted members members (extractall members) :=
    extracted_fold whole members [] _ rfl
      { sound := fun _ _ _ absurdity => by cases absurdity
        complete := fun _ absurdity => by cases absurdity }
  constructor
  · exact extracted.sound path content below
  · exact extracted.complete { path, content }

/-! ## The members of a tree -/

theorem mem_recorded {root : List String} {entries : Entries} {given : Member} :
    given ∈ recorded root entries ↔
      ∃ entry ∈ entries.list, given = { path := root ++ [entry.1], content := entry.2.content } := by
  have kinds : ∀ entry : String × Node, entry ∈ sortedEntries (entries.list.filter isDirectory) ++
      sortedEntries (entries.list.filter fun entry => !isDirectory entry) ↔
        entry ∈ entries.list := by
    intro entry
    rw [List.mem_append, sortedEntries, sortedEntries, List.mem_insertionSort,
      List.mem_insertionSort, List.mem_filter, List.mem_filter]
    cases isDirectory entry <;> simp
  rw [recorded, List.mem_map]
  simp only [kinds, eq_comm]

@[simp] theorem Node.listed_content (node : Node) : node.listed.content = node.content := by
  cases node <;> rfl

@[simp] theorem Node.lookup_nil (node : Node) : node.lookup [] = some node.content := by
  cases node <;> rfl

/-- The walk changes no names. -/
theorem Entries.listed_names : (entries : Entries) → entries.listed.names = entries.names
  | .nil => rfl
  | .cons name _ rest => congrArg (name :: ·) rest.listed_names

theorem Entries.lookup_absent {wanted : String} (path : List String) :
    (entries : Entries) → wanted ∉ entries.names → entries.lookup wanted path = none
  | .nil, _ => rfl
  | .cons name _ rest, absent => by
    have other : name ≠ wanted := fun same => absent (same ▸ List.mem_cons_self)
    rw [Entries.lookup, if_neg other]
    exact rest.lookup_absent path fun inRest => absent (List.mem_cons_of_mem name inRest)

mutual

/-- The members of a directory are what the walk sees below it. -/
theorem Node.mem_members (root : List String) (given : Member) :
    (node : Node) → node.Distinct → (given ∈ node.members root ↔
      ∃ path, path ≠ [] ∧ given.path = root ++ path ∧
        node.listed.lookup path = some given.content)
  | .file bytes, _ => by
    constructor
    · intro absurdity
      cases absurdity
    · rintro ⟨path, below, _, found⟩
      cases path with
      | nil => exact absurd rfl below
      | cons name path => cases found
  | .directory false entries, _ => by
    constructor
    · intro absurdity
      cases absurdity
    · rintro ⟨path, below, _, found⟩
      cases path with
      | nil => exact absurd rfl below
      | cons name path => cases found
  | .directory true entries, distinct => by
    have inside := entries.mem_members root given distinct
    rw [Node.members, if_pos rfl, inside]
    constructor
    · rintro ⟨name, path, named, found⟩
      exact ⟨name :: path, List.cons_ne_nil name path, named, found⟩
    · rintro ⟨path, below, named, found⟩
      cases path with
      | nil => exact absurd rfl below
      | cons name path => exact ⟨name, path, named, found⟩

theorem Entries.mem_members (root : List String) (given : Member) :
    (entries : Entries) → entries.Distinct →
      (given ∈ recorded root entries ++ entries.members root ↔
        ∃ name path, given.path = root ++ name :: path ∧
          entries.listed.lookup name path = some given.content)
  | .nil, _ => by
    constructor
    · intro absurdity
      cases absurdity
    · rintro ⟨name, path, _, absurdity⟩
      cases absurdity
  | .cons name node rest, ⟨fresh, nodeDistinct, restDistinct⟩ => by
    have inNode := node.mem_members (root ++ [name]) given nodeDistinct
    have inRest := rest.mem_members root given restDistinct
    have absent : ∀ path, rest.listed.lookup name path = none := fun path =>
      rest.listed.lookup_absent path (rest.listed_names.symm ▸ fresh)
    rw [List.mem_append] at inRest
    rw [List.mem_append, mem_recorded, Entries.members, List.mem_append, inNode]
    constructor
    · rintro (⟨entry, member, rfl⟩ | ⟨path, _, named, found⟩ | inMembers)
      · rcases List.mem_cons.mp member with rfl | among
        · refine ⟨name, [], rfl, ?_⟩
          rw [Entries.listed, Entries.lookup, if_pos rfl, Node.lookup_nil, Node.listed_content]
        · obtain ⟨other, path, named, found⟩ :=
            inRest.mp (Or.inl (mem_recorded.mpr ⟨entry, among, rfl⟩))
          refine ⟨other, path, named, ?_⟩
          rw [Entries.listed, Entries.lookup, if_neg, found]
          rintro rfl
          exact absurd ((absent path).symm.trans found) (by simp)
      · refine ⟨name, path, named.trans (List.append_assoc _ _ _), ?_⟩
        rw [Entries.listed, Entries.lookup, if_pos rfl, found]
      · obtain ⟨other, path, named, found⟩ := inRest.mp (Or.inr inMembers)
        refine ⟨other, path, named, ?_⟩
        rw [Entries.listed, Entries.lookup, if_neg, found]
        rintro rfl
        exact absurd ((absent path).symm.trans found) (by simp)
    · rintro ⟨other, path, named, found⟩
      rw [Entries.listed, Entries.lookup] at found
      split at found
      · next same =>
        subst same
        cases path with
        | nil =>
          rw [Node.lookup_nil, Node.listed_content] at found
          obtain ⟨givenPath, givenContent⟩ := given
          refine Or.inl ⟨(name, node), List.mem_cons_self, ?_⟩
          rw [Member.mk.injEq]
          exact ⟨named, (Option.some.inj found).symm⟩
        | cons head path =>
          exact Or.inr (Or.inl ⟨head :: path, List.cons_ne_nil head path,
            named.trans (List.append_assoc root [name] (head :: path)).symm, found⟩)
      · rcases inRest.mpr ⟨other, path, named, found⟩ with inRecorded | inMembers
        · obtain ⟨entry, among, same⟩ := mem_recorded.mp inRecorded
          exact Or.inl ⟨entry, List.mem_cons_of_mem _ among, same⟩
        · exact Or.inr (Or.inr inMembers)

end

/-- A name in a directory stands for one node, or for nothing. -/
theorem Entries.lookup_node (wanted : String) : (entries : Entries) →
    (∃ node : Node, ∀ path, entries.lookup wanted path = node.lookup path) ∨
      ∀ path, entries.lookup wanted path = none
  | .nil => Or.inr fun _ => rfl
  | .cons name node rest => by
    by_cases same : name = wanted
    · exact Or.inl ⟨node, fun path => by rw [Entries.lookup, if_pos same]⟩
    · rcases rest.lookup_node wanted with ⟨other, found⟩ | absent
      · exact Or.inl ⟨other, fun path => by rw [Entries.lookup, if_neg same, found]⟩
      · exact Or.inr fun path => by rw [Entries.lookup, if_neg same, absent]

/-- Above whatever there is there are directories. -/
theorem Node.lookup_above (node : Node) (path rest : List String) (below : rest ≠ [])
    {content : Content} (found : node.lookup (path ++ rest) = some content) :
    node.lookup path = some none := by
  induction path generalizing node with
  | nil =>
    cases node with
    | file bytes =>
      cases rest with
      | nil => exact absurd rfl below
      | cons name rest => cases found
    | directory listable entries => rfl
  | cons name path inductionHypothesis =>
    cases node with
    | file bytes => cases found
    | directory listable entries =>
      rw [List.cons_append, Node.lookup] at found
      rw [Node.lookup]
      rcases entries.lookup_node name with ⟨inner, same⟩ | absent
      · rw [same] at found ⊢
        exact inductionHypothesis inner found
      · rw [absent] at found
        cases found

theorem Node.members_complete (node : Node) (distinct : node.Distinct) :
    Complete (node.members []) := by
  have members := fun given => node.mem_members [] given distinct
  constructor
  · intro first isFirst second isSecond same
    obtain ⟨path, _, firstNamed, firstFound⟩ := (members first).mp isFirst
    obtain ⟨other, _, secondNamed, secondFound⟩ := (members second).mp isSecond
    have paths : path = other := firstNamed.symm.trans (same.trans secondNamed)
    rw [paths, secondFound] at firstFound
    obtain ⟨firstPath, firstContent⟩ := first
    obtain ⟨secondPath, secondContent⟩ := second
    rw [Member.mk.injEq]
    exact ⟨same, (Option.some.inj firstFound).symm⟩
  · intro inner isInner path below above differs
    obtain ⟨whole, _, named, found⟩ := (members inner).mp isInner
    obtain ⟨rest, joined⟩ := above
    have innerPath : whole = path ++ rest := named.symm.trans joined.symm
    have restBelow : rest ≠ [] := by
      rintro rfl
      exact differs (by rw [← joined, List.append_nil])
    rw [innerPath] at found
    exact ⟨{ path, content := none }, (members _).mpr ⟨path, below, rfl,
      node.listed.lookup_above path rest restBelow found⟩, rfl, rfl⟩

/-- Unpacking what was packed gives back the tree that the walk saw. -/
theorem extractall_members (node : Node) (distinct : node.Distinct) {path : List String}
    (below : path ≠ []) :
    extractall (node.members []) path = node.listed.lookup path := by
  apply Option.ext
  intro content
  rw [extractall_iff (node.members_complete distinct) below, node.mem_members [] _ distinct]
  constructor
  · rintro ⟨found, _, rfl, here⟩
    exact here
  · intro here
    exact ⟨path, below, rfl, here⟩

/-! ## What the walk sees -/

mutual

theorem Node.listed_of_listable : (node : Node) → node.Listable → node.listed = node
  | .file _, _ => rfl
  | .directory listable entries, ⟨seen, inside⟩ => by
    rw [Node.listed, entries.listed_of_listable inside]
    rcases seen with rfl | rfl
    · rfl
    · cases listable <;> rfl

theorem Entries.listed_of_listable : (entries : Entries) → entries.Listable →
    entries.listed = entries
  | .nil, _ => rfl
  | .cons name node rest, ⟨nodeListable, restListable⟩ => by
    rw [Entries.listed, node.listed_of_listable nodeListable,
      rest.listed_of_listable restListable]

end

mutual

theorem Node.listable_of_listed : (node : Node) → node.Distinct →
    (∀ path, node.listed.lookup path = node.lookup path) → node.Listable
  | .file _, _, _ => trivial
  | .directory true entries, distinct, same =>
    ⟨Or.inl rfl, entries.listable_of_listed distinct fun name path => same (name :: path)⟩
  | .directory false .nil, _, _ => ⟨Or.inr rfl, trivial⟩
  | .directory false (.cons name node rest), _, same => by
    have missing := same [name]
    rw [Node.lookup, Entries.lookup, if_pos rfl, Node.lookup_nil] at missing
    cases missing

theorem Entries.listable_of_listed : (entries : Entries) → entries.Distinct →
    (∀ name path, entries.listed.lookup name path = entries.lookup name path) → entries.Listable
  | .nil, _, _ => trivial
  | .cons name node rest, ⟨fresh, nodeDistinct, restDistinct⟩, same => by
    constructor
    · apply node.listable_of_listed nodeDistinct
      intro path
      have here := same name path
      rwa [Entries.listed, Entries.lookup, Entries.lookup, if_pos rfl, if_pos rfl] at here
    · apply rest.listable_of_listed restDistinct
      intro wanted path
      by_cases named : name = wanted
      · rw [rest.lookup_absent path (named ▸ fresh), rest.listed.lookup_absent path]
        exact rest.listed_names.symm ▸ named ▸ fresh
      · have there := same wanted path
        rwa [Entries.listed, Entries.lookup, Entries.lookup, if_neg named, if_neg named] at there

end

/-- Packing and unpacking a tree gives it back exactly when the walk can list it. -/
theorem unpacked_iff (node : Node) (distinct : node.Distinct) :
    (∀ path, path ≠ [] → extractall (node.members []) path = node.lookup path) ↔
      node.Listable := by
  constructor
  · intro same
    apply node.listable_of_listed distinct
    intro path
    cases path with
    | nil => rw [Node.lookup_nil, Node.lookup_nil, Node.listed_content]
    | cons name path =>
      have below := List.cons_ne_nil name path
      rw [← extractall_members node distinct below, same _ below]
  · intro listable path below
    rw [extractall_members node distinct below, node.listed_of_listable listable]

end CaracalDB.Pack
