import CaracalDB.Dict
import CaracalDB.Diagnostics
import CaracalDB.PythonValue

/-!
# The registry of snapshots

A snapshot has an entry in the registry, with the number of its holders, and its name
in the manifest. A call that adds or removes an entry replaces the registry first and
the manifest then. A run that is never stopped between the two leaves the names of the
registry in the manifest; a run that is not stopped at all, and gives no negative LSN,
has an entry for every snapshot that was created and opened more often than released.
-/

namespace CaracalDB.Registry

structure SnapshotEntry where
  name : String
  lsn_high : Int
  created_at : String
  refcount : Int
deriving DecidableEq

abbrev SnapshotRegistry := Dict String SnapshotEntry

/-- The manifest, as far as snapshots read and write it. -/
structure Manifest where
  last_lsn : Int
  snapshots : List String
deriving DecidableEq

/-- The files of a bundle; without a registry file the registry is empty. -/
structure Files where
  registry : SnapshotRegistry
  manifest : Manifest

/-- An open bundle holds its manifest in memory. -/
structure Bundle where
  files : Files
  manifest : Manifest

/-- One file that is replaced as a whole. -/
inductive Replacement where
  | registry (registry : SnapshotRegistry)
  | manifest (manifest : Manifest)

def Files.replace (files : Files) : Replacement → Files
  | .registry registry => { files with registry }
  | .manifest manifest => { files with manifest }

inductive Answer where
  | snapshot (lsn_high : Int) (name : String)
  | removed (removed : Bool)
deriving DecidableEq

/-- What a call replaces, in its order, the manifest it leaves in memory and its answer. -/
structure Outcome where
  writes : List Replacement
  manifest : Manifest
  answer : Except Raised Answer

/-- `sorted(registry.entries.keys())` -/
def sortedNames (registry : SnapshotRegistry) : List String :=
  registry.keys.mergeSort fun left right => decide (left ≤ right)

/-- `SnapshotId(lsn_high, name)` -/
def snapshotId (lsn_high : Int) (name : String) : Except Raised Answer :=
  if lsn_high < 0 then raiseCaracal "CDB-8001" "snapshot lsn must be >= 0"
  else .ok (.snapshot lsn_high name)

namespace Bundle

/-- A call that replaces nothing and raises an error. -/
def refused (bundle : Bundle) (code message : String) : Outcome :=
  { writes := [], manifest := bundle.manifest, answer := raiseCaracal code message }

/-- `create_snapshot(bundle, name, lsn_high)` at a time. -/
def createSnapshot (bundle : Bundle) (name : String) (lsn_high : Option Int) (now : String) :
    Outcome :=
  if name = "" then bundle.refused "CDB-8011" "snapshot name cannot be empty"
  else if name ∈ bundle.files.registry.keys then
    bundle.refused "CDB-8012" ("snapshot " ++ Value.quoted name ++ " already exists")
  else
    let lsn := lsn_high.getD bundle.manifest.last_lsn
    let registry := bundle.files.registry.set name
      { name, lsn_high := lsn, created_at := now, refcount := 1 }
    let new_manifest := { bundle.manifest with snapshots := sortedNames registry }
    { writes := [.registry registry, .manifest new_manifest]
      manifest := new_manifest
      answer := snapshotId lsn name }

/-- `open_snapshot(bundle, name)` -/
def openSnapshot (bundle : Bundle) (name : String) : Outcome :=
  match bundle.files.registry.get? name with
  | none => bundle.refused "CDB-8013" ("snapshot not found: " ++ Value.quoted name)
  | some entry =>
    let registry := bundle.files.registry.set name { entry with refcount := entry.refcount + 1 }
    { writes := [.registry registry]
      manifest := bundle.manifest
      answer := snapshotId entry.lsn_high name }

/-- `release_snapshot(bundle, name)` -/
def releaseSnapshot (bundle : Bundle) (name : String) : Outcome :=
  match bundle.files.registry.get? name with
  | none => bundle.refused "CDB-8013" ("snapshot not found: " ++ Value.quoted name)
  | some entry =>
    if entry.refcount - 1 ≤ 0 then
      let registry := bundle.files.registry.erase name
      let new_manifest := { bundle.manifest with snapshots := sortedNames registry }
      { writes := [.registry registry, .manifest new_manifest]
        manifest := new_manifest
        answer := .ok (.removed true) }
    else
      let registry := bundle.files.registry.set name { entry with refcount := entry.refcount - 1 }
      { writes := [.registry registry]
        manifest := bundle.manifest
        answer := .ok (.removed false) }

/-- `open_bundle(path)` -/
def reopen (files : Files) : Bundle := { files, manifest := files.manifest }

end Bundle

/-! ## Runs -/

inductive SnapshotCall where
  | create (name : String) (lsn_high : Option Int) (now : String)
  | acquire (name : String)
  | release (name : String)

namespace SnapshotCall

/-- The snapshot that a call names. -/
def name : SnapshotCall → String
  | .create name _ _ | .acquire name | .release name => name

def perform (bundle : Bundle) : SnapshotCall → Outcome
  | .create name lsn_high now => bundle.createSnapshot name lsn_high now
  | .acquire name => bundle.openSnapshot name
  | .release name => bundle.releaseSnapshot name

/-- Does the call add or remove an entry? -/
def ChangesNames (bundle : Bundle) : SnapshotCall → Prop
  | .create name _ _ => name ≠ "" ∧ name ∉ bundle.files.registry.keys
  | .acquire _ => False
  | .release name => ∃ entry, bundle.files.registry.get? name = some entry ∧ entry.refcount ≤ 1

/-- A snapshot that is created has an LSN that is not negative. -/
def Proper (bundle : Bundle) : SnapshotCall → Prop
  | .create _ lsn_high _ => 0 ≤ lsn_high.getD bundle.manifest.last_lsn
  | _ => True

end SnapshotCall

/-- What has happened to a snapshot. -/
inductive Event where
  | created (lsn_high : Int)
  | opened
  | released
deriving DecidableEq

/-- What a call that answers does to the snapshot it names. -/
def SnapshotCall.event (bundle : Bundle) : SnapshotCall → Event
  | .create _ lsn_high _ => .created (lsn_high.getD bundle.manifest.last_lsn)
  | .acquire _ => .opened
  | .release _ => .released

/-- What a call does to a snapshot. -/
def SnapshotCall.events (bundle : Bundle) (call : SnapshotCall) (name : String) : List Event :=
  match (call.perform bundle).answer with
  | .ok _ => if name = call.name then [call.event bundle] else []
  | .error _ => []

/-- Creates and opens. -/
def gains (events : List Event) : Nat := events.countP (· ≠ .released)

def losses (events : List Event) : Nat := events.count .released

/-- A bundle, what has happened to every snapshot since it was last absent, and whether the
run was stopped. -/
structure Session where
  bundle : Bundle
  since : String → List Event
  stopped : Bool

namespace Session

/-- A call that comes to its end. -/
def next (session : Session) (call : SnapshotCall) : Session :=
  let outcome := call.perform session.bundle
  let files := outcome.writes.foldl Files.replace session.bundle.files
  { bundle := { files, manifest := outcome.manifest }
    since := fun name => if name ∈ files.registry.keys then
      session.since name ++ call.events session.bundle name else []
    stopped := session.stopped }

/-- A call that is stopped after some replacements, and the bundle that is opened then. -/
def stop (session : Session) (call : SnapshotCall) (replaced : Nat) : Session :=
  let writes := (call.perform session.bundle).writes.take replaced
  { session with
    bundle := Bundle.reopen (writes.foldl Files.replace session.bundle.files)
    stopped := true }

/-- A bundle without snapshots. -/
def start (last_lsn : Int) : Session :=
  { bundle := Bundle.reopen { registry := Dict.empty, manifest := { last_lsn, snapshots := [] } }
    since := fun _ => []
    stopped := false }

/-- The runs that are never stopped between the two replacements of a call and give no negative
LSN. -/
inductive Reached : Session → Prop where
  | start (last_lsn : Int) : Reached (start last_lsn)
  | next {session : Session} (call : SnapshotCall) :
      Reached session → call.Proper session.bundle → Reached (session.next call)
  | stop {session : Session} (call : SnapshotCall) (replaced : Nat) :
      Reached session → (call.ChangesNames session.bundle → replaced ≠ 1) →
        Reached (session.stop call replaced)

end Session

/-! ## Names -/

/-- The manifest has the names of the registry. -/
def Files.Mirrored (files : Files) : Prop :=
  files.manifest.snapshots = sortedNames files.registry

theorem sortedNames_set {registry : SnapshotRegistry} {name : String} (entry : SnapshotEntry)
    (held : name ∈ registry.keys) : sortedNames (registry.set name entry) = sortedNames registry := by
  rw [sortedNames, Dict.keys_set, if_pos held, sortedNames]

theorem mem_keys_of_get {registry : SnapshotRegistry} {name : String} {entry : SnapshotEntry}
    (found : registry.get? name = some entry) : name ∈ registry.keys :=
  (Dict.mem_keys _ _).mpr ⟨entry, found⟩

/-- A call replaces nothing, or the registry with its names kept, or the registry and then the
manifest with the new names. -/
theorem writes_cases (bundle : Bundle) (call : SnapshotCall) :
    (¬ call.ChangesNames bundle ∧ ((call.perform bundle).writes = [] ∨
      ∃ registry, (call.perform bundle).writes = [.registry registry] ∧
        sortedNames registry = sortedNames bundle.files.registry)) ∨
    (call.ChangesNames bundle ∧ ∃ registry manifest,
      (call.perform bundle).writes = [.registry registry, .manifest manifest] ∧
        manifest.snapshots = sortedNames registry) := by
  cases call with
  | create name lsn_high now =>
    rw [SnapshotCall.perform, Bundle.createSnapshot]
    by_cases empty : name = ""
    · rw [if_pos empty]
      exact .inl ⟨fun changes => changes.1 empty, .inl rfl⟩
    · rw [if_neg empty]
      by_cases held : name ∈ bundle.files.registry.keys
      · rw [if_pos held]
        exact .inl ⟨fun changes => changes.2 held, .inl rfl⟩
      · rw [if_neg held]
        exact .inr ⟨⟨empty, held⟩, _, _, rfl, rfl⟩
  | acquire name =>
    rw [SnapshotCall.perform, Bundle.openSnapshot]
    cases found : bundle.files.registry.get? name with
    | none => exact .inl ⟨id, .inl rfl⟩
    | some entry =>
      exact .inl ⟨id, .inr ⟨_, rfl, sortedNames_set _ (mem_keys_of_get found)⟩⟩
  | release name =>
    rw [SnapshotCall.perform, Bundle.releaseSnapshot]
    cases found : bundle.files.registry.get? name with
    | none =>
      refine .inl ⟨?_, .inl rfl⟩
      rintro ⟨entry, held, _⟩
      rw [found] at held
      cases held
    | some entry =>
      simp only
      by_cases last : entry.refcount - 1 ≤ 0
      · rw [if_pos last]
        exact .inr ⟨⟨entry, found, by omega⟩, _, _, rfl, rfl⟩
      · rw [if_neg last]
        refine .inl ⟨?_, .inr ⟨_, rfl, sortedNames_set _ (mem_keys_of_get found)⟩⟩
        rintro ⟨other, held, few⟩
        obtain rfl : entry = other := Option.some.inj (found.symm.trans held)
        omega

/-- Some of the replacements of a call, but not the first of two, keep the names mirrored. -/
theorem mirrored_stop {bundle : Bundle} (mirrored : bundle.files.Mirrored) (call : SnapshotCall)
    {replaced : Nat} (whole : call.ChangesNames bundle → replaced ≠ 1) :
    (((call.perform bundle).writes.take replaced).foldl Files.replace bundle.files).Mirrored := by
  rcases writes_cases bundle call with ⟨_, none | ⟨registry, one, same⟩⟩ |
    ⟨changes, registry, manifest, two, same⟩
  · rw [none, List.take_nil]
    exact mirrored
  · rw [one]
    cases replaced with
    | zero => exact mirrored
    | succ replaced =>
      rw [List.take_succ_cons, List.take_nil]
      exact mirrored.trans same.symm
  · rw [two]
    match replaced, whole changes with
    | 0, _ => exact mirrored
    | 1, between => exact absurd rfl between
    | replaced + 2, _ =>
      rw [List.take_succ_cons, List.take_succ_cons, List.take_nil]
      exact same

/-- All replacements of a call keep the names mirrored. -/
theorem mirrored_finish {bundle : Bundle} (mirrored : bundle.files.Mirrored) (call : SnapshotCall) :
    ((call.perform bundle).writes.foldl Files.replace bundle.files).Mirrored := by
  have past : call.ChangesNames bundle → (call.perform bundle).writes.length + 2 ≠ 1 := fun _ => by
    omega
  have whole := mirrored_stop mirrored call past
  rwa [List.take_of_length_le (Nat.le_add_right _ _)] at whole

/-- After the first of two replacements the manifest has the names from before. -/
theorem unmirrored_between {bundle : Bundle} (mirrored : bundle.files.Mirrored) {call : SnapshotCall}
    (changes : call.ChangesNames bundle) :
    ¬ (((call.perform bundle).writes.take 1).foldl Files.replace bundle.files).Mirrored := by
  have differs {registry : SnapshotRegistry} (name : String)
      (one : name ∈ registry.keys ↔ name ∉ bundle.files.registry.keys) :
      bundle.files.manifest.snapshots ≠ sortedNames registry := by
    intro same
    have names := mirrored.symm.trans same
    have member : name ∈ sortedNames bundle.files.registry ↔ name ∈ sortedNames registry := by
      rw [names]
    rw [sortedNames, sortedNames, List.mem_mergeSort, List.mem_mergeSort] at member
    tauto
  cases call with
  | create name lsn_high now =>
    obtain ⟨empty, fresh⟩ := changes
    rw [SnapshotCall.perform, Bundle.createSnapshot, if_neg empty, if_neg fresh]
    refine differs name ?_
    show name ∈ (bundle.files.registry.set name _).keys ↔ _
    rw [Dict.mem_keys_set]
    exact iff_of_true (.inl rfl) fresh
  | acquire name => exact changes.elim
  | release name =>
    obtain ⟨entry, found, few⟩ := changes
    have last : entry.refcount - 1 ≤ 0 := by omega
    rw [SnapshotCall.perform, Bundle.releaseSnapshot, found]
    simp only [if_pos last]
    refine differs name (iff_of_false ?_ (not_not.mpr (mem_keys_of_get found)))
    show name ∉ (bundle.files.registry.erase name).keys
    rw [← Dict.get_eq_none, Dict.get_erase, if_pos rfl]

/-! ## Holders -/

/-- An entry has as many holders as creates and opens exceed releases, and the LSN of the create
that comes first. -/
structure Balanced (entry : SnapshotEntry) (events : List Event) : Prop where
  count : entry.refcount + losses events = gains events
  held : 0 < entry.refcount
  first : events.head? = some (.created entry.lsn_high)
  natural : 0 ≤ entry.lsn_high

/-- Every entry is balanced, and nothing has happened to what is absent. -/
def Counted (registry : SnapshotRegistry) (since : String → List Event) : Prop :=
  ∀ name, match registry.get? name with
    | none => since name = []
    | some entry => Balanced entry (since name)

theorem Counted.absent {registry : SnapshotRegistry} {since : String → List Event}
    (counted : Counted registry since) {name : String} (absent : registry.get? name = none) :
    since name = [] := by
  have here := counted name
  rwa [absent] at here

theorem Counted.balanced {registry : SnapshotRegistry} {since : String → List Event}
    (counted : Counted registry since) {name : String} {entry : SnapshotEntry}
    (found : registry.get? name = some entry) : Balanced entry (since name) := by
  have here := counted name
  rwa [found] at here

/-- A change of one entry leaves the others counted. -/
theorem Counted.change {registry after : SnapshotRegistry} {since events : String → List Event}
    (counted : Counted registry since) (name : String)
    (others : ∀ other, other ≠ name → after.get? other = registry.get? other ∧ events other = [])
    (here : ∀ entry, after.get? name = some entry → Balanced entry (since name ++ events name)) :
    Counted after fun name => if name ∈ after.keys then since name ++ events name else [] := by
  intro other
  cases found : after.get? other with
  | none =>
    have absent : other ∉ after.keys := (Dict.get_eq_none _ _).mp found
    exact if_neg absent
  | some entry =>
    show Balanced entry (if _ then _ else _)
    rw [if_pos (mem_keys_of_get found)]
    by_cases same : other = name
    · subst same
      exact here entry found
    · obtain ⟨kept, nothing⟩ := others other same
      rw [nothing, List.append_nil]
      exact counted.balanced (kept.symm.trans found)

theorem events_refused {bundle : Bundle} {call : SnapshotCall} {raised : Raised}
    (failed : (call.perform bundle).answer = .error raised) (name : String) :
    call.events bundle name = [] := by
  rw [SnapshotCall.events, failed]

theorem events_answered {bundle : Bundle} {call : SnapshotCall} {answer : Answer}
    (answered : (call.perform bundle).answer = .ok answer) (name : String) :
    call.events bundle name = if name = call.name then [call.event bundle] else [] := by
  rw [SnapshotCall.events, answered]

/-- A call that is refused leaves every entry counted. -/
theorem Counted.refused {bundle : Bundle} {since : String → List Event}
    (counted : Counted bundle.files.registry since) {call : SnapshotCall} (code message : String)
    (refused : call.perform bundle = bundle.refused code message) :
    Counted ((call.perform bundle).writes.foldl Files.replace bundle.files).registry fun name =>
      if name ∈ ((call.perform bundle).writes.foldl Files.replace bundle.files).registry.keys then
        since name ++ call.events bundle name else [] := by
  have failed : (call.perform bundle).answer = raiseCaracal code message := by
    rw [refused]
    rfl
  have nothing := events_refused failed
  rw [refused]
  refine counted.change "" (fun other _ => ⟨rfl, nothing other⟩) fun entry found => ?_
  rw [nothing, List.append_nil]
  exact counted.balanced found

theorem gains_append (events : List Event) (event : Event) :
    gains (events ++ [event]) = gains events + if event = .released then 0 else 1 := by
  rw [gains, List.countP_append]
  cases event <;> rfl

theorem losses_append (events : List Event) (event : Event) :
    losses (events ++ [event]) = losses events + if event = .released then 1 else 0 := by
  rw [losses, List.count_append]
  cases event <;> rfl

/-- A call that comes to its end leaves every entry counted. -/
theorem Counted.finish {bundle : Bundle} {since : String → List Event}
    (counted : Counted bundle.files.registry since) {call : SnapshotCall}
    (proper : call.Proper bundle) :
    Counted ((call.perform bundle).writes.foldl Files.replace bundle.files).registry fun name =>
      if name ∈ ((call.perform bundle).writes.foldl Files.replace bundle.files).registry.keys then
        since name ++ call.events bundle name else [] := by
  cases call with
  | create name lsn_high now =>
    by_cases empty : name = ""
    · exact counted.refused _ _ (show bundle.createSnapshot name lsn_high now = _ from if_pos empty)
    · by_cases held : name ∈ bundle.files.registry.keys
      · exact counted.refused _ _
          (show bundle.createSnapshot name lsn_high now = _ from (if_neg empty).trans (if_pos held))
      · have natural : 0 ≤ lsn_high.getD bundle.manifest.last_lsn := proper
        let lsn := lsn_high.getD bundle.manifest.last_lsn
        let entry : SnapshotEntry := { name, lsn_high := lsn, created_at := now, refcount := 1 }
        have done : SnapshotCall.perform bundle (.create name lsn_high now) =
            { writes := [.registry (bundle.files.registry.set name entry),
                .manifest { bundle.manifest with
                  snapshots := sortedNames (bundle.files.registry.set name entry) }]
              manifest := { bundle.manifest with
                snapshots := sortedNames (bundle.files.registry.set name entry) }
              answer := .ok (.snapshot lsn name) } := by
          rw [SnapshotCall.perform, Bundle.createSnapshot, if_neg empty, if_neg held]
          simp only [snapshotId, if_neg (Int.not_lt.mpr natural)]
          rfl
        have events := events_answered (congrArg Outcome.answer done)
        rw [done]
        refine counted.change name (fun other different => ⟨Dict.get_set_of_ne _ different _, ?_⟩)
          fun found same => ?_
        · rw [events]
          exact if_neg different
        · obtain rfl : entry = found :=
            Option.some.inj ((Dict.get_set_self _ _ _).symm.trans same)
          rw [events, counted.absent ((Dict.get_eq_none _ _).mpr held), List.nil_append]
          show Balanced entry (if name = name then [Event.created lsn] else [])
          rw [if_pos rfl]
          exact ⟨rfl, Int.one_pos, rfl, natural⟩
  | acquire name =>
    cases found : bundle.files.registry.get? name with
    | none =>
      refine counted.refused "CDB-8013" ("snapshot not found: " ++ Value.quoted name) ?_
      rw [SnapshotCall.perform, Bundle.openSnapshot, found]
    | some entry =>
      have balanced := counted.balanced found
      let more : SnapshotEntry := { entry with refcount := entry.refcount + 1 }
      have done : SnapshotCall.perform bundle (.acquire name) =
          { writes := [.registry (bundle.files.registry.set name more)]
            manifest := bundle.manifest
            answer := .ok (.snapshot entry.lsn_high name) } := by
        rw [SnapshotCall.perform, Bundle.openSnapshot, found]
        simp only [snapshotId, if_neg (Int.not_lt.mpr balanced.natural)]
        rfl
      have events := events_answered (congrArg Outcome.answer done)
      rw [done]
      refine counted.change name (fun other different => ⟨Dict.get_set_of_ne _ different _, ?_⟩)
        fun other same => ?_
      · rw [events]
        exact if_neg different
      · obtain rfl : more = other := Option.some.inj ((Dict.get_set_self _ _ _).symm.trans same)
        rw [events]
        show Balanced more (since name ++ if name = name then [Event.opened] else [])
        rw [if_pos rfl]
        have count := balanced.count
        have held := balanced.held
        refine ⟨?_, ?_, ?_, balanced.natural⟩
        · rw [gains_append, losses_append, if_neg (by decide), if_neg (by decide)]
          show entry.refcount + 1 + _ = _
          omega
        · show 0 < entry.refcount + 1
          omega
        · rw [List.head?_append, balanced.first]
          rfl
  | release name =>
    cases found : bundle.files.registry.get? name with
    | none =>
      refine counted.refused "CDB-8013" ("snapshot not found: " ++ Value.quoted name) ?_
      rw [SnapshotCall.perform, Bundle.releaseSnapshot, found]
    | some entry =>
      have balanced := counted.balanced found
      by_cases last : entry.refcount - 1 ≤ 0
      · have answered : (SnapshotCall.perform bundle (.release name)).answer = .ok (.removed true) := by
          rw [SnapshotCall.perform, Bundle.releaseSnapshot, found]
          simp only [if_pos last]
        have written : ((SnapshotCall.perform bundle (.release name)).writes.foldl Files.replace
            bundle.files).registry = bundle.files.registry.erase name := by
          rw [SnapshotCall.perform, Bundle.releaseSnapshot, found]
          simp only [if_pos last]
          rfl
        have events := events_answered answered
        rw [written]
        refine counted.change name (fun other different => ⟨?_, ?_⟩) fun other same => ?_
        · rw [Dict.get_erase, if_neg different]
        · rw [events]
          exact if_neg different
        · rw [Dict.get_erase, if_pos rfl] at same
          cases same
      · let fewer : SnapshotEntry := { entry with refcount := entry.refcount - 1 }
        have answered : (SnapshotCall.perform bundle (.release name)).answer = .ok (.removed false) := by
          rw [SnapshotCall.perform, Bundle.releaseSnapshot, found]
          simp only [if_neg last]
        have written : ((SnapshotCall.perform bundle (.release name)).writes.foldl Files.replace
            bundle.files).registry = bundle.files.registry.set name fewer := by
          rw [SnapshotCall.perform, Bundle.releaseSnapshot, found]
          simp only [if_neg last]
          rfl
        have events := events_answered answered
        rw [written]
        refine counted.change name (fun other different => ⟨Dict.get_set_of_ne _ different _, ?_⟩)
          fun other same => ?_
        · rw [events]
          exact if_neg different
        · obtain rfl : fewer = other := Option.some.inj ((Dict.get_set_self _ _ _).symm.trans same)
          rw [events]
          show Balanced fewer (since name ++ if name = name then [Event.released] else [])
          rw [if_pos rfl]
          have count := balanced.count
          refine ⟨?_, ?_, ?_, balanced.natural⟩
          · rw [gains_append, losses_append, if_pos rfl, if_pos rfl]
            show entry.refcount - 1 + _ = _
            omega
          · show 0 < entry.refcount - 1
            omega
          · rw [List.head?_append, balanced.first]
            rfl

namespace Session

theorem Reached.kept {session : Session} (reached : Reached session) :
    session.bundle.files.Mirrored ∧
      (session.stopped = false → Counted session.bundle.files.registry session.since) := by
  induction reached with
  | start last_lsn => exact ⟨List.mergeSort_nil.symm, fun _ name => rfl⟩
  | next call _ proper inductionHypothesis =>
    exact ⟨mirrored_finish inductionHypothesis.1 call,
      fun running => (inductionHypothesis.2 running).finish proper⟩
  | stop call replaced _ whole inductionHypothesis =>
    exact ⟨mirrored_stop inductionHypothesis.1 call whole, nofun⟩

end Session

end CaracalDB.Registry
