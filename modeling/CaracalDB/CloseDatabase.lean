import CaracalDB.PackedBundle

/-!
# Closing a packed database

A database that was opened from a packed file works on an unpacked copy. Closing it
removes the old file, packs the copy to the same path and deletes the copy. Each of
these is a file operation of its own: the process can stop before it or within it,
and each of them but the last can fail, which ends the closing.
-/

namespace CaracalDB.Pack

/-- `_ZIP_COMMENT`, which starts with the `MAGIC` of the headers. -/
def ZIP_COMMENT : List UInt8 :=
  [67, 82, 67, 76, 0, 0, 0, 1] ++ [80, 65, 67, 75, 69, 68]

/-- What is at the path of a packed database: nothing, the beginning of an archive whose central
directory is not written, the last member possibly torn, or a whole archive and its comment. -/
inductive Target where
  | absent
  | unfinished (members : List Member) (torn : Option Member)
  | archive (members : List Member) (comment : List UInt8)
deriving DecidableEq

/-- A handle at the call of `close`. -/
structure Session where
  closed : Bool
  /-- `self._packed_source is not None` -/
  packedSource : Bool
  /-- `self._working_dir is not None` -/
  workingDir : Bool
  mode : String
  /-- The tree at the path of the bundle, if there is one. -/
  bundle : Option Node

/-- The file operations of closing. -/
inductive FileOperation where
  /-- `self._packed_source.unlink()` -/
  | unlink
  /-- Raising `CDB-9010`: the bundle is not a directory. -/
  | refuse
  /-- `dest.parent.mkdir(parents=True, exist_ok=True)` -/
  | makeParents
  /-- `zipfile.ZipFile(dest, "w")` -/
  | create
  /-- `zf.mkdir` or `zf.write` -/
  | add (added : Member)
  /-- Closing the archive, which writes its central directory. -/
  | finish
  /-- `shutil.rmtree(self._working_dir, ignore_errors=True)` -/
  | removeWorkingDir
deriving DecidableEq

/-- `pack_bundle`, once nothing is at its output. -/
def packOperations : Option Node → List FileOperation
  | some (.directory listable entries) =>
      [.makeParents, .create] ++
        ((Node.directory listable entries).members []).map .add ++ [.finish]
  | _ => [.refuse]

/-- `Database.close` -/
def closeOperations (session : Session) (target : Target) : List FileOperation :=
  if session.closed then []
  else
    (if session.packedSource ∧ session.mode = "rw" then
      (if target = .absent then [] else [.unlink]) ++ packOperations session.bundle
    else []) ++
      if session.workingDir then [.removeWorkingDir] else []

/-- What an operation that returns makes of the target. -/
def perform (target : Target) : FileOperation → Target
  | .unlink => .absent
  | .create => .unfinished [] none
  | .add added =>
      match target with
      | .unfinished members _ => .unfinished (members ++ [added]) none
      | other => other
  | .finish =>
      match target with
      | .unfinished members _ => .archive members ZIP_COMMENT
      | other => other
  | .refuse | .makeParents | .removeWorkingDir => target

/-- What is on disk when the process stops: of an open archive what has been flushed, the last
member perhaps in part. -/
inductive Stopped : Target → Target → Prop
  | absent : Stopped .absent .absent
  | archive (members : List Member) (comment : List UInt8) :
      Stopped (.archive members comment) (.archive members comment)
  | unfinished (members kept : List Member) (torn flushed : Option Member) :
      kept <+: members → Stopped (.unfinished members torn) (.unfinished kept flushed)

/-- What an operation that raises leaves: packing closes the archive it was writing, with the member
it failed in or without, unless closing fails too. -/
inductive Raises : FileOperation → Target → Target → Prop
  | unchanged (operation : FileOperation) (target : Target) :
      operation = .unlink ∨ operation = .refuse ∨ operation = .makeParents ∨
        operation = .create → Raises operation target target
  | closing (added : Member) (members : List Member) (torn part : Option Member) :
      Raises (.add added) (.unfinished members torn)
        (.archive (members ++ part.toList) ZIP_COMMENT)
  | unfinished (operation : FileOperation) (members kept : List Member)
      (torn flushed : Option Member) : operation = .finish ∨ (∃ added, operation = .add added) →
      Raises operation (.unfinished members torn) (.unfinished kept flushed)

/-- How a run of operations ends early or completes. -/
inductive Ending where
  | stopped
  | raised
  | completed
deriving DecidableEq

/-- A run of file operations: which of them returned, how it ended and what it left. -/
inductive Leaves : List FileOperation → Target → List FileOperation → Ending → Target → Prop
  | stop (operations : List FileOperation) (target left : Target) :
      Stopped target left → Leaves operations target [] .stopped left
  | raise (operation : FileOperation) (rest : List FileOperation) (target left : Target) :
      Raises operation target left → Leaves (operation :: rest) target [] .raised left
  | complete (target : Target) : Leaves [] target [] .completed target
  | next (operation : FileOperation) (rest performed : List FileOperation) (target left : Target)
      (ending : Ending) : operation ≠ .refuse →
      Leaves rest (perform target operation) performed ending left →
      Leaves (operation :: rest) target (operation :: performed) ending left

/-- `_connect_packed`: what is unpacked from a packed file. -/
def unpack : Target → Option Files
  | .archive members comment => if comment = ZIP_COMMENT then some (extractall members) else none
  | _ => none

/-- The packed file of a bundle. -/
def packedFile (bundle : Option Node) : Option Target :=
  bundle.map fun root => .archive (root.members []) ZIP_COMMENT

/-- The path holds the previous file or the complete new one. -/
def Intact (session : Session) (previous left : Target) : Prop :=
  left = previous ∨ packedFile session.bundle = some left

/-- The old file has not been touched, or the new one has been finished. -/
def OutsideGap (performed : List FileOperation) : Prop :=
  .finish ∈ performed ∨ (.unlink ∉ performed ∧ .create ∉ performed)

instance (performed : List FileOperation) : Decidable (OutsideGap performed) :=
  inferInstanceAs (Decidable (_ ∨ _))

/-! ## The operations one after another -/

theorem leaves_begin {operations performed : List FileOperation} {target left : Target}
    {ending : Ending} (run : Leaves operations target performed ending left) :
    performed <+: operations := by
  induction run with
  | stop operations _ _ _ => exact List.nil_prefix
  | raise operation rest _ _ _ => exact List.nil_prefix
  | complete _ => exact List.nil_prefix
  | next operation rest performed _ _ _ _ _ inductionHypothesis =>
    exact List.cons_prefix_cons.mpr ⟨rfl, inductionHypothesis⟩

/-- A run over one more operation ends before it or goes on behind it. -/
theorem leaves_cons {operation : FileOperation} {rest performed : List FileOperation}
    {target left : Target} {ending : Ending}
    (run : Leaves (operation :: rest) target performed ending left) :
    (performed = [] ∧ ((ending = .stopped ∧ Stopped target left) ∨
        (ending = .raised ∧ Raises operation target left))) ∨
      ∃ later, performed = operation :: later ∧ operation ≠ .refuse ∧
        Leaves rest (perform target operation) later ending left := by
  cases run with
  | stop _ _ _ stopped => exact Or.inl ⟨rfl, Or.inl ⟨rfl, stopped⟩⟩
  | raise _ _ _ _ raised => exact Or.inl ⟨rfl, Or.inr ⟨rfl, raised⟩⟩
  | next _ _ later _ _ _ returns behind => exact Or.inr ⟨later, rfl, returns, behind⟩

/-- What is not being written stays as it is when the process stops. -/
theorem stopped_same {target left : Target} (stopped : Stopped target left)
    (settled : ∀ members torn, target ≠ .unfinished members torn) : left = target := by
  cases stopped with
  | absent => rfl
  | archive => rfl
  | unfinished members _ torn _ _ => exact absurd rfl (settled members torn)

theorem stopped_unfinished {members : List Member} {torn : Option Member} {left : Target}
    (stopped : Stopped (.unfinished members torn) left) :
    ∃ kept flushed, left = .unfinished kept flushed := by
  cases stopped
  exact ⟨_, _, rfl⟩

theorem raises_same {operation : FileOperation} {target left : Target}
    (raised : Raises operation target left)
    (settled : ∀ members torn, target ≠ .unfinished members torn) : left = target := by
  cases raised with
  | unchanged => rfl
  | closing _ members torn _ => exact absurd rfl (settled members torn)
  | unfinished _ members _ torn _ _ => exact absurd rfl (settled members torn)

theorem removal_keeps {operations performed : List FileOperation} {target left : Target}
    {ending : Ending} (removes : ∀ operation ∈ operations, operation = .removeWorkingDir)
    (settled : ∀ members torn, target ≠ .unfinished members torn)
    (run : Leaves operations target performed ending left) : left = target := by
  induction run with
  | stop _ _ _ stopped => exact stopped_same stopped settled
  | raise _ _ _ _ raised => exact raises_same raised settled
  | complete _ => rfl
  | next operation rest _ _ _ _ _ _ inductionHypothesis =>
    have removal := removes operation List.mem_cons_self
    subst removal
    exact inductionHypothesis
      (fun later member => removes later (List.mem_cons_of_mem _ member)) settled

/-- Filling an archive ends with the whole of it, or before its central directory is written. -/
theorem filling_leaves {tail : List FileOperation}
    (removes : ∀ operation ∈ tail, operation = .removeWorkingDir) (added members : List Member)
    {performed : List FileOperation} {left : Target} {ending : Ending}
    (run : Leaves (added.map .add ++ .finish :: tail) (.unfinished members none) performed ending
      left) :
    (.finish ∈ performed ∧ left = .archive (members ++ added) ZIP_COMMENT) ∨
      (.finish ∉ performed ∧ ending ≠ .completed ∧
        (ending = .stopped → ∃ kept torn, left = .unfinished kept torn)) := by
  induction added generalizing members performed with
  | nil =>
    rcases leaves_cons run with ⟨rfl, ⟨rfl, stopped⟩ | ⟨rfl, _⟩⟩ | ⟨later, rfl, _, behind⟩
    · exact Or.inr ⟨List.not_mem_nil, by decide, fun _ => stopped_unfinished stopped⟩
    · exact Or.inr ⟨List.not_mem_nil, by decide, fun absurdity => by cases absurdity⟩
    · refine Or.inl ⟨List.mem_cons_self, ?_⟩
      rw [List.append_nil]
      exact removal_keeps removes (fun _ _ absurdity => by cases absurdity) behind
  | cons next added inductionHypothesis =>
    rcases leaves_cons run with ⟨rfl, ⟨rfl, stopped⟩ | ⟨rfl, _⟩⟩ | ⟨later, rfl, _, behind⟩
    · exact Or.inr ⟨List.not_mem_nil, by decide, fun _ => stopped_unfinished stopped⟩
    · exact Or.inr ⟨List.not_mem_nil, by decide, fun absurdity => by cases absurdity⟩
    · rcases inductionHypothesis (members ++ [next]) behind with
        ⟨finished, whole⟩ | ⟨unfinished, early, partly⟩
      · refine Or.inl ⟨List.mem_cons_of_mem _ finished, ?_⟩
        rw [whole, List.append_assoc]
        rfl
      · refine Or.inr ⟨?_, early, partly⟩
        rintro (_ | _)
        exact unfinished ‹_›

/-- Packing to a path where nothing is: the path stays empty until the archive is created, and holds
no archive until it is finished. -/
theorem packing_leaves {tail : List FileOperation}
    (removes : ∀ operation ∈ tail, operation = .removeWorkingDir) (added : List Member)
    {performed : List FileOperation} {left : Target} {ending : Ending}
    (run : Leaves (.makeParents :: .create :: (added.map .add ++ .finish :: tail)) .absent performed
      ending left) :
    (.finish ∈ performed ∧ left = .archive added ZIP_COMMENT) ∨
      (.finish ∉ performed ∧ .create ∉ performed ∧ ending ≠ .completed ∧ left = .absent) ∨
      (.finish ∉ performed ∧ .create ∈ performed ∧ ending ≠ .completed ∧
        (ending = .stopped → ∃ kept torn, left = .unfinished kept torn)) := by
  have settled : ∀ members torn, Target.absent ≠ .unfinished members torn := by
    intro members torn absurdity
    cases absurdity
  have early : ∀ {operation : FileOperation},
      (ending = .stopped ∧ Stopped .absent left) ∨
        (ending = .raised ∧ Raises operation .absent left) →
      ending ≠ .completed ∧ left = .absent := by
    rintro operation (⟨rfl, stopped⟩ | ⟨rfl, raised⟩)
    · exact ⟨by decide, stopped_same stopped settled⟩
    · exact ⟨by decide, raises_same raised settled⟩
  rcases leaves_cons run with ⟨rfl, ends⟩ | ⟨later, rfl, _, behind⟩
  · exact Or.inr (Or.inl ⟨by simp, by simp, early ends⟩)
  · rcases leaves_cons behind with ⟨rfl, ends⟩ | ⟨more, rfl, _, filling⟩
    · exact Or.inr (Or.inl ⟨by simp, by simp, early ends⟩)
    · rcases filling_leaves removes added [] filling with
        ⟨finished, whole⟩ | ⟨unfinished, unready, partly⟩
      · exact Or.inl ⟨by simp [finished], whole⟩
      · exact Or.inr (Or.inr ⟨by simp [unfinished], by simp, unready, partly⟩)

/-- Where the new file stands when closing ends. -/
inductive Outcome (session : Session) (previous left : Target) (performed : List FileOperation)
    (ending : Ending) : Prop where
  | finished (within : .finish ∈ performed) (whole : packedFile session.bundle = some left)
      (isDirectory : ∃ root, session.bundle = some root)
  | untouched (outside : .finish ∉ performed ∧ .unlink ∉ performed ∧ .create ∉ performed)
      (early : ending ≠ .completed) (same : left = previous)
  | lost (inside : ¬ OutsideGap performed) (early : ending ≠ .completed)
      (neither : ending = .stopped → left ≠ previous ∧ packedFile session.bundle ≠ some left)

/-- No archive is at the path of a file that is missing or not finished. -/
theorem packedFile_ne {bundle : Option Node} {left : Target}
    (unready : ∀ members comment, left ≠ .archive members comment) :
    packedFile bundle ≠ some left := by
  intro packed
  cases bundle with
  | none => cases packed
  | some root => exact unready _ _ (Option.some.inj packed).symm

/-- Packing after the old file is gone, or where there was none. -/
theorem packing_outcome {session : Session} {previous left : Target}
    (whole : ∀ members torn, previous ≠ .unfinished members torn) {tail : List FileOperation}
    (removes : ∀ operation ∈ tail, operation = .removeWorkingDir)
    {before later : List FileOperation} {ending : Ending}
    (unlinked : before = [] ∧ previous = .absent ∨ before = [.unlink] ∧ previous ≠ .absent)
    (run : Leaves (packOperations session.bundle ++ tail) .absent later ending left) :
    Outcome session previous left (before ++ later) ending := by
  have missing : ∀ members comment, Target.absent ≠ .archive members comment := by
    intro members comment absurdity
    cases absurdity
  have absence : .finish ∉ later → .create ∉ later → .unlink ∉ later → ending ≠ .completed →
      left = .absent → Outcome session previous left (before ++ later) ending := by
    intro noFinish noCreate noUnlink early same
    rcases unlinked with ⟨rfl, empty⟩ | ⟨rfl, present⟩
    · exact .untouched ⟨noFinish, noUnlink, noCreate⟩ early (same.trans empty.symm)
    · refine .lost ?_ early fun _ => ⟨?_, ?_⟩
      · simp [OutsideGap, noFinish]
      · exact fun unchanged => present (unchanged.symm.trans same)
      · exact same ▸ packedFile_ne missing
  have refused : packOperations session.bundle = [.refuse] →
      Outcome session previous left (before ++ later) ending := by
    intro operations
    rw [operations] at run
    rcases leaves_cons run with ⟨rfl, ⟨rfl, stopped⟩ | ⟨rfl, raised⟩⟩ | ⟨_, _, returns, _⟩
    · exact absence (by simp) (by simp) (by simp) (by decide)
        (stopped_same stopped fun _ _ absurdity => by cases absurdity)
    · exact absence (by simp) (by simp) (by simp) (by decide)
        (raises_same raised fun _ _ absurdity => by cases absurdity)
    · exact absurd rfl returns
  cases found : session.bundle with
  | none => exact refused (by rw [found]; rfl)
  | some root =>
    cases root with
    | file bytes => exact refused (by rw [found]; rfl)
    | directory listable entries =>
      have noUnlink : .unlink ∉ later := by
        intro within
        have among := (leaves_begin run).subset within
        rw [found] at among
        simp only [packOperations, List.cons_append, List.nil_append, List.append_assoc,
          List.mem_cons, List.mem_append, List.mem_map, reduceCtorEq, and_false, exists_false,
          false_or] at among
        cases removes _ among
      rw [found] at run
      have ordered : packOperations (some (.directory listable entries)) ++ tail =
          .makeParents :: .create ::
            (((Node.directory listable entries).members []).map .add ++ .finish :: tail) := by
        simp [packOperations]
      rw [ordered] at run
      rcases packing_leaves removes _ run with
        ⟨finished, whole⟩ | ⟨noFinish, noCreate, early, same⟩ |
          ⟨noFinish, created, early, partly⟩
      · refine .finished (List.mem_append_right before finished) ?_ ⟨_, found⟩
        rw [found, whole]
        rfl
      · exact absence noFinish noCreate noUnlink early same
      · refine .lost ?_ early fun stopped => ?_
        · have none : .finish ∉ before := by
            rcases unlinked with ⟨rfl, _⟩ | ⟨rfl, _⟩ <;> simp
          simp [OutsideGap, noFinish, created, none]
        · obtain ⟨kept, torn, rfl⟩ := partly stopped
          exact ⟨fun same => whole kept torn same.symm,
            packedFile_ne fun _ _ absurdity => by cases absurdity⟩

theorem close_outcome {session : Session} {previous left : Target} (isOpen : session.closed = false)
    (packed : session.packedSource = true) (mode : session.mode = "rw")
    (whole : ∀ members torn, previous ≠ .unfinished members torn)
    {performed : List FileOperation} {ending : Ending}
    (run : Leaves (closeOperations session previous) previous performed ending left) :
    Outcome session previous left performed ending := by
  have removes : ∀ operation ∈ (if session.workingDir then [FileOperation.removeWorkingDir] else []),
      operation = .removeWorkingDir := by
    intro operation member
    split at member
    · exact List.mem_singleton.mp member
    · cases member
  rw [closeOperations, isOpen, if_neg Bool.false_ne_true, if_pos ⟨packed, mode⟩] at run
  by_cases empty : previous = .absent
  · rw [if_pos empty, List.nil_append] at run
    have packing := packing_outcome whole removes (Or.inl ⟨rfl, empty⟩) (empty ▸ run)
    exact packing
  · rw [if_neg empty, List.append_assoc] at run
    rcases leaves_cons run with ⟨rfl, ⟨rfl, stopped⟩ | ⟨rfl, raised⟩⟩ | ⟨later, rfl, _, behind⟩
    · exact .untouched ⟨by simp, by simp, by simp⟩ (by decide) (stopped_same stopped whole)
    · exact .untouched ⟨by simp, by simp, by simp⟩ (by decide) (raises_same raised whole)
    · exact packing_outcome whole removes (Or.inr ⟨rfl, empty⟩) behind

/-- Closing keeps the previous file or leaves the complete new one when it ends before the old file
is removed, or before the archive is created where there was none, or after the archive is finished;
where the process stops in between, neither is there. A bundle that has been closed is unpacked as
it was exactly when each of its directories could be listed. -/
theorem close_keeps_database {session : Session} {previous left : Target}
    (isOpen : session.closed = false) (packed : session.packedSource = true)
    (mode : session.mode = "rw") (whole : ∀ members torn, previous ≠ .unfinished members torn)
    {performed : List FileOperation} {ending : Ending}
    (run : Leaves (closeOperations session previous) previous performed ending left) :
    (OutsideGap performed → Intact session previous left) ∧
      (ending = .stopped → Intact session previous left → OutsideGap performed) ∧
      (ending = .completed → ∃ root, session.bundle = some root ∧ (root.Distinct →
        ((∃ files, unpack left = some files ∧
          ∀ path, path ≠ [] → files path = root.lookup path) ↔ root.Listable))) := by
  cases close_outcome isOpen packed mode whole run with
  | finished within packs isDirectory =>
    refine ⟨fun _ => Or.inr packs, fun _ _ => Or.inl within, fun _ => ?_⟩
    obtain ⟨root, found⟩ := isDirectory
    rw [found] at packs
    refine ⟨root, found, fun distinct => ?_⟩
    have unpacked : unpack left = some (extractall (root.members [])) := by
      rw [← Option.some.inj packs]
      show (if ZIP_COMMENT = ZIP_COMMENT then some (extractall (root.members [])) else none) = _
      rw [if_pos rfl]
    rw [← unpacked_iff root distinct, unpacked]
    constructor
    · rintro ⟨files, made, same⟩
      rw [Option.some.inj made]
      exact same
    · exact fun same => ⟨_, rfl, same⟩
  | untouched outside early same =>
    exact ⟨fun _ => Or.inl same, fun _ _ => Or.inr outside.2, fun completed =>
      absurd completed early⟩
  | lost inside early neither =>
    refine ⟨fun outside => absurd outside inside, fun stopped intact => ?_, fun completed =>
      absurd completed early⟩
    rcases intact with same | new
    · exact absurd same (neither stopped).1
    · exact absurd new (neither stopped).2

/-! ## A small bundle -/

/-- A bundle of one directory and one file. -/
def smallBundle : Node :=
  .directory true (.cons "MANIFEST" (.file [123, 125]) (.cons "wal" (.directory true .nil) .nil))

/-- A database opened from a packed file. -/
def smallSession : Session where
  closed := false
  packedSource := true
  workingDir := true
  mode := "rw"
  bundle := some smallBundle

/-- The packed file it was opened from. -/
def smallFile : Target := .archive [{ path := ["MANIFEST"], content := some [] }] ZIP_COMMENT

theorem close_small_session :
    ∃ left, Leaves (closeOperations smallSession smallFile) smallFile
        (closeOperations smallSession smallFile) .completed left ∧
      Intact smallSession smallFile left ∧
      ∃ files, unpack left = some files ∧
        ∀ path, path ≠ [] → files path = smallBundle.lookup path := by
  have run : Leaves (closeOperations smallSession smallFile) smallFile
      (closeOperations smallSession smallFile) .completed
      (.archive (smallBundle.members []) ZIP_COMMENT) := by
    have operations : closeOperations smallSession smallFile =
        [.unlink, .makeParents, .create, .add { path := ["wal"], content := none },
          .add { path := ["MANIFEST"], content := some [123, 125] }, .finish,
          .removeWorkingDir] := by decide +kernel
    rw [operations]
    repeat' first | exact .complete _ | apply Leaves.next
    all_goals simp
  obtain ⟨kept, _, completes⟩ := close_keeps_database rfl rfl rfl
    (fun _ _ absurdity => by cases absurdity) run
  obtain ⟨root, found, unpacks⟩ := completes rfl
  cases found
  refine ⟨_, run, kept (by decide +kernel), (unpacks ?_).mpr ?_⟩
  · exact ⟨by decide, trivial, by decide, trivial, trivial⟩
  · exact ⟨Or.inl rfl, trivial, ⟨Or.inl rfl, trivial⟩, trivial⟩

/-- Once the old file is removed there is nothing at the path until the new one is made. -/
theorem stop_after_unlink :
    Leaves (closeOperations smallSession smallFile) smallFile [.unlink] .stopped .absent ∧
      ¬ Intact smallSession smallFile .absent := by
  constructor
  · refine Leaves.next .unlink _ [] smallFile _ _ (by decide) ?_
    exact Leaves.stop _ _ _ Stopped.absent
  · rintro (same | new)
    · cases same
    · cases new

end CaracalDB.Pack
