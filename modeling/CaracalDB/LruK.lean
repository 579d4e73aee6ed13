import CaracalDB.BufferPool
import CaracalDB.Loops

/-!
# The victims of the pool

A frame keeps the times of its last `lru_k` accesses. Over all accesses since a page became resident,
its distance is how long ago the access before `lru_k` accesses was, and there is none if the page was
accessed less often. The frame that makes room is the one of the greatest distance.
-/

namespace CaracalDB.Pool

/-! ## The last items -/

section Recent

variable {Item : Type}

/-- The last `count` items. -/
def recent (count : Nat) (items : List Item) : List Item := items.drop (items.length - count)

theorem recent_length (count : Nat) (items : List Item) :
    (recent count items).length = min count items.length := by
  rw [recent, List.length_drop]
  omega

/-- The last items of the last items and one more are the last items of all. -/
theorem recent_append (count : Nat) (items : List Item) (item : Item) :
    recent count (recent count items ++ [item]) = recent count (items ++ [item]) := by
  rcases Nat.le_total items.length count with few | many
  · have whole : recent count items = items := by
      rw [recent, Nat.sub_eq_zero_of_le few, List.drop_zero]
    rw [whole]
  · have size : (recent count items ++ [item]).length - count = 1 := by
      rw [List.length_append, recent_length, Nat.min_eq_left many, List.length_singleton]
      omega
    have more : (items ++ [item]).length - count = items.length - count + 1 := by
      rw [List.length_append, List.length_singleton]
      omega
    have front : items.drop (items.length - count) ++ [item] =
        (items ++ [item]).drop (items.length - count) :=
      (List.drop_append_of_le_length (Nat.sub_le _ _)).symm
    rw [recent, size, recent, front, List.drop_drop, recent, more]

theorem recent_head {count : Nat} {items : List Item} (default : Item) :
    (recent count items).headD default = items.getD (items.length - count) default := by
  rw [recent, List.headD_eq_head?_getD, List.head?_drop, List.getD_eq_getElem?_getD]

theorem recent_last {count : Nat} (positive : 0 < count) (items : List Item) :
    (recent count items).getLast? = items.getLast? := by
  rw [recent, List.getLast?_drop]
  split
  · next few =>
      have none : items = [] := by
        apply List.eq_nil_of_length_eq_zero
        omega
      rw [none]
      rfl
  · rfl

end Recent

/-! ## All accesses -/

/-- The page that an operation accesses. -/
def Op.page : Op → Option Nat
  | .fetch page_id | .new page_id => some page_id.toNat
  | _ => none

/-- The page that is accessed by an operation that succeeds. -/
def accessed (pool : BufferPool) (op : Op) : Option Nat :=
  match (perform pool op).1 with
  | .ok () => op.page
  | .error _ => none

/-- A pool with the number of accesses so far, and the times of all accesses to each page since it
became resident. -/
structure Run where
  pool : BufferPool
  now : Nat
  times : Nat → List Nat

namespace Run

def start (pool : BufferPool) : Run := { pool, now := 0, times := fun _ => [] }

/-- A page that is dropped loses its accesses. -/
def next (run : Run) (op : Op) : Run :=
  let after := (perform run.pool op).2
  match accessed run.pool op with
  | none =>
      { pool := after, now := run.now
        times := fun page_id => if page_id ∈ after.frames.keys then run.times page_id else [] }
  | some page =>
      { pool := after, now := run.now + 1
        times := fun page_id =>
          if page_id = page then run.times page_id ++ [run.now + 1]
          else if page_id ∈ after.frames.keys then run.times page_id else [] }

/-- The runs of a pool that was created over a store, whatever its clients do. -/
inductive Reached : Run → Prop where
  | start {capacity_pages page_size lru_k : Int} {backing : Nat → List UInt8} {pool : BufferPool} :
      BufferPool.create capacity_pages page_size lru_k backing = .ok pool → Reached (start pool)
  | next {run : Run} (op : Op) : Reached run → Reached (run.next op)

/-- How long ago the access before `lru_k` accesses to a page was; without so many accesses the
page is infinitely far. -/
def distance (run : Run) (page_id : Nat) : Option Nat :=
  let times := run.times page_id
  if times.length < run.pool.lru_k then none
  else some (run.now - times.getD (times.length - run.pool.lru_k) 0)

/-- The time of the latest access to a page. -/
def latest (run : Run) (page_id : Nat) : Nat := (run.times page_id).getLastD 0

/-- A page is farther than another: its distance is greater, or both are infinitely far and its latest
access is earlier. -/
def Farther (run : Run) (page_id other : Nat) : Prop :=
  match run.distance page_id, run.distance other with
  | none, none => run.latest page_id < run.latest other
  | none, some _ => True
  | some _, none => False
  | some far, some near => near < far

/-- The frames keep the last accesses. -/
structure Recorded (run : Run) : Prop where
  clock : run.pool.clock = run.now
  positive : 0 < run.pool.lru_k
  named : ∀ page_id frame, run.pool.frames.get? page_id = some frame → frame.page_id = page_id
  history : ∀ page_id frame, run.pool.frames.get? page_id = some frame →
    frame.access_history = recent run.pool.lru_k (run.times page_id)
  some_access : ∀ page_id frame, run.pool.frames.get? page_id = some frame → run.times page_id ≠ []
  gone : ∀ page_id, run.pool.frames.get? page_id = none → run.times page_id = []
  past : ∀ page_id, ∀ time ∈ run.times page_id, time ≤ run.now
  apart : ∀ first second time, time ∈ run.times first → time ∈ run.times second → first = second

end Run

/-! ## What an operation records -/

/-- No access is recorded: what is still in a frame has its history. -/
structure Retains (pool after : BufferPool) : Prop where
  lru_k : after.lru_k = pool.lru_k
  clock : after.clock = pool.clock
  frames : ∀ page_id frame, after.frames.get? page_id = some frame → ∃ earlier,
    pool.frames.get? page_id = some earlier ∧ frame.page_id = earlier.page_id ∧
      frame.access_history = earlier.access_history

/-- One access is recorded, to a page that is resident then. -/
structure Accesses (pool after : BufferPool) (page : Nat) : Prop where
  lru_k : after.lru_k = pool.lru_k
  clock : after.clock = pool.clock + 1
  own : ∃ frame, after.frames.get? page = some frame ∧ frame.page_id = page ∧
    frame.access_history = recent pool.lru_k
      (((pool.frames.get? page).map PageFrame.access_history).getD [] ++ [pool.clock + 1])
  frames : ∀ page_id, page_id ≠ page → ∀ frame, after.frames.get? page_id = some frame →
    ∃ earlier, pool.frames.get? page_id = some earlier ∧ frame.page_id = earlier.page_id ∧
      frame.access_history = earlier.access_history

/-- Frames are kept under their pages. -/
def Named (pool : BufferPool) : Prop :=
  ∀ page_id frame, pool.frames.get? page_id = some frame → frame.page_id = page_id

section Records

variable {pool middle after : BufferPool} {page : Nat}

theorem Retains.refl (pool : BufferPool) : Retains pool pool :=
  ⟨rfl, rfl, fun _ frame held => ⟨frame, held, rfl, rfl⟩⟩

theorem Retains.trans (first : Retains pool middle) (second : Retains middle after) :
    Retains pool after := by
  refine ⟨second.lru_k.trans first.lru_k, second.clock.trans first.clock, ?_⟩
  intro page_id frame held
  obtain ⟨between, heldBetween, same, history⟩ := second.frames page_id frame held
  obtain ⟨earlier, heldBefore, sameBefore, historyBefore⟩ := first.frames page_id between heldBetween
  exact ⟨earlier, heldBefore, same.trans sameBefore, history.trans historyBefore⟩

theorem Retains.named (retains : Retains pool after) (named : Named pool) : Named after := by
  intro page_id frame held
  obtain ⟨earlier, heldBefore, same, _⟩ := retains.frames page_id frame held
  exact same.trans (named page_id earlier heldBefore)

/-- A frame is stored again with its history. -/
theorem Retains.set {frame : PageFrame} (stored : PageFrame)
    (held : pool.frames.get? frame.page_id = some frame)
    (same : stored.page_id = frame.page_id) (history : stored.access_history = frame.access_history)
    (lru_k : after.lru_k = pool.lru_k) (clock : after.clock = pool.clock)
    (frames : after.frames = pool.frames.set frame.page_id stored) : Retains pool after := by
  refine ⟨lru_k, clock, fun page_id other found => ?_⟩
  rw [frames, Dict.get_set] at found
  split at found
  · next here =>
    cases found
    rw [here]
    exact ⟨frame, held, same, history⟩
  · exact ⟨other, found, rfl, rfl⟩

theorem flushFrame_retains {frame : PageFrame} (held : pool.frames.get? frame.page_id = some frame) :
    Retains pool (pool.flushFrame frame) := by
  rw [BufferPool.flushFrame]
  split
  · exact Retains.set { frame with dirty := false } held rfl rfl rfl rfl rfl
  · exact Retains.refl pool

theorem flushAll_retains (named : Named pool) : Retains pool pool.flushAll := by
  apply foldl_invariant BufferPool.flushHeld (fun _ state => Retains pool state) _ _ pool
    (Retains.refl pool)
  intro _ page_id state retains
  apply retains.trans
  rw [BufferPool.flushHeld]
  cases held : state.frames.get? page_id with
  | none => exact Retains.refl state
  | some frame =>
    have own := retains.named named page_id frame held
    exact flushFrame_retains (own.symm ▸ held)

/-- What is dropped is the victim. -/
theorem ensureCapacity_spec (named : Named pool) (made : pool.ensureCapacity = .ok after) :
    Retains pool after ∧ (¬ pool.frames.keys.length < pool.capacity_pages →
      ∃ victim, pool.chooseVictim = .ok victim ∧
        ∀ page_id, page_id ∈ after.frames.keys ↔
          page_id ∈ pool.frames.keys ∧ page_id ≠ victim.page_id) := by
  rw [BufferPool.ensureCapacity] at made
  split at made
  · next free =>
    cases made
    exact ⟨Retains.refl pool, fun full => absurd free full⟩
  · obtain ⟨victim, chosen, rest⟩ := except_bind_ok made
    cases rest
    obtain ⟨⟨page_id, found⟩, _⟩ := Session.victim_unpinned chosen
    have held : pool.frames.get? victim.page_id = some victim := by
      rw [named page_id victim found]
      exact found
    have flushed := flushFrame_retains held
    refine ⟨⟨flushed.lru_k, flushed.clock, ?_⟩, fun _ => ⟨victim, chosen, fun other => ?_⟩⟩
    · intro other frame kept
      rw [Dict.get_erase] at kept
      split at kept
      · cases kept
      · exact flushed.frames other frame kept
    · rw [Dict.mem_keys, Dict.mem_keys]
      simp only [Dict.get_erase]
      by_cases same : other = victim.page_id
      · simp [same]
      · simp only [same, if_false, Session.flushFrame_get pool victim same, ne_eq,
          not_false_eq_true, and_true]

theorem recordAccess_accesses {frame : PageFrame}
    (history : frame.access_history =
      ((pool.frames.get? frame.page_id).map PageFrame.access_history).getD []) :
    Accesses pool (pool.recordAccess frame).2 frame.page_id := by
  refine ⟨rfl, rfl, ⟨_, Dict.get_set_self _ _ _, rfl, ?_⟩, fun page_id other found held => ?_⟩
  · rw [← history]
    rfl
  · have kept : pool.frames.get? page_id = some found := by
      rw [← held]
      exact (Dict.get_set_of_ne _ other _).symm
    exact ⟨found, kept, rfl, rfl⟩

/-- A page that was not resident is accessed after room has been made for it. -/
theorem Retains.records (retains : Retains pool middle) (absent : pool.frames.get? page = none)
    (frame : PageFrame) (own : frame.page_id = page) (fresh : frame.access_history = []) :
    Accesses pool (middle.recordAccess frame).2 page := by
  subst own
  have still : middle.frames.get? frame.page_id = none := by
    cases held : middle.frames.get? frame.page_id with
    | none => rfl
    | some other =>
      obtain ⟨earlier, heldBefore, _⟩ := retains.frames frame.page_id other held
      rw [absent] at heldBefore
      cases heldBefore
  have past : frame.access_history =
      ((middle.frames.get? frame.page_id).map PageFrame.access_history).getD [] := by
    rw [still, fresh]
    rfl
  obtain ⟨lru_k, clock, ⟨stored, held, same, history⟩, frames⟩ := recordAccess_accesses past
  refine ⟨lru_k.trans retains.lru_k, by rw [clock, retains.clock], ⟨stored, held, same, ?_⟩, ?_⟩
  · rw [history, still, absent, retains.lru_k, retains.clock]
  · intro page_id other found kept
    obtain ⟨between, heldBetween, sameBetween, samePast⟩ := frames page_id other found kept
    obtain ⟨earlier, heldBefore, sameBefore, before⟩ := retains.frames page_id between heldBetween
    exact ⟨earlier, heldBefore, sameBetween.trans sameBefore, samePast.trans before⟩

/-- An answer with a frame accesses the page, and an answer without one accesses none. -/
def Settles (pool : BufferPool) (page : Nat) : Except Refused PageFrame × BufferPool → Prop
  | (.ok _, after) => Accesses pool after page
  | (.error _, after) => Retains pool after

theorem fetchPage_settles (named : Named pool) (page_id : Int) :
    Settles pool page_id.toNat (pool.fetchPage page_id) := by
  cases numbered : pageId page_id with
  | error refused =>
    have done : pool.fetchPage page_id = (.error refused, pool) := by
      simp only [BufferPool.fetchPage, numbered]
    rw [done]
    exact Retains.refl pool
  | ok number =>
    obtain rfl := Session.pageId_ok numbered
    cases found : pool.frames.get? page_id.toNat with
    | some frame =>
      let pinned : PageFrame := { frame with pin_count := frame.pin_count + 1 }
      have done : pool.fetchPage page_id =
          BufferPool.recordAccess { pool with hits := pool.hits + 1 } pinned := by
        simp only [BufferPool.fetchPage, numbered, found, pinned]
      have own : pinned.page_id = page_id.toNat := named _ frame found
      have past : pinned.access_history =
          ((pool.frames.get? pinned.page_id).map PageFrame.access_history).getD [] := by
        rw [own, found]
        rfl
      obtain ⟨lru_k, clock, recorded, frames⟩ :
          Accesses { pool with hits := pool.hits + 1 }
            (BufferPool.recordAccess { pool with hits := pool.hits + 1 } pinned).2 pinned.page_id :=
        recordAccess_accesses past
      rw [done, ← own]
      exact ⟨lru_k, clock, recorded, frames⟩
    | none =>
      have missed : Retains pool { pool with misses := pool.misses + 1 } :=
        ⟨rfl, rfl, fun _ frame held => ⟨frame, held, rfl, rfl⟩⟩
      cases made : BufferPool.ensureCapacity { pool with misses := pool.misses + 1 } with
      | error refused =>
        have done : pool.fetchPage page_id =
            (.error refused, { pool with misses := pool.misses + 1 }) := by
          simp only [BufferPool.fetchPage, numbered, found, made]
        rw [done]
        exact missed
      | ok roomy =>
        have room := missed.trans (ensureCapacity_spec (missed.named named) made).1
        cases read : pageData (roomy.backing page_id.toNat) roomy.page_size with
        | error refused =>
          have done : pool.fetchPage page_id = (.error refused, roomy) := by
            simp only [BufferPool.fetchPage, numbered, found, made, read]
          rw [done]
          exact room
        | ok data =>
          let fetched : PageFrame :=
            { page_id := page_id.toNat, data, pin_count := 1, dirty := false, access_history := [] }
          have done : pool.fetchPage page_id = roomy.recordAccess fetched := by
            simp only [BufferPool.fetchPage, numbered, found, made, read, fetched]
          rw [done]
          exact room.records found fetched rfl rfl

theorem newPage_settles (named : Named pool) (page_id : Int) :
    Settles pool page_id.toNat (pool.newPage page_id) := by
  cases numbered : pageId page_id with
  | error refused =>
    have done : pool.newPage page_id = (.error refused, pool) := by
      simp only [BufferPool.newPage, numbered]
    rw [done]
    exact Retains.refl pool
  | ok number =>
    obtain rfl := Session.pageId_ok numbered
    cases found : pool.frames.get? page_id.toNat with
    | some existing =>
      let renewed : PageFrame := { existing with pin_count := existing.pin_count + 1
                                                 data := List.replicate pool.page_size 0
                                                 dirty := true }
      have done : pool.newPage page_id = pool.recordAccess renewed := by
        simp only [BufferPool.newPage, numbered, found, renewed]
      have own : renewed.page_id = page_id.toNat := named _ existing found
      have past : renewed.access_history =
          ((pool.frames.get? renewed.page_id).map PageFrame.access_history).getD [] := by
        rw [own, found]
        rfl
      rw [done, ← own]
      exact recordAccess_accesses past
    | none =>
      cases made : pool.ensureCapacity with
      | error refused =>
        have done : pool.newPage page_id = (.error refused, pool) := by
          simp only [BufferPool.newPage, numbered, found, made]
        rw [done]
        exact Retains.refl pool
      | ok roomy =>
        let fresh : PageFrame :=
          { page_id := page_id.toNat, data := List.replicate roomy.page_size 0, pin_count := 1
            dirty := true, access_history := [] }
        have done : pool.newPage page_id = roomy.recordAccess fresh := by
          simp only [BufferPool.newPage, numbered, found, made, fresh]
        rw [done]
        exact (ensureCapacity_spec named made).1.records found fresh rfl rfl

/-- A frame that is stored under its page by a client or a flush keeps its history. -/
theorem resident_retains (named : Named pool) {page_id : Int} {frame stored : PageFrame}
    (held : pool.resident page_id = .ok frame) (same : stored.page_id = frame.page_id)
    (history : stored.access_history = frame.access_history) :
    Retains pool { pool with frames := pool.frames.set frame.page_id stored } := by
  have found := Session.resident_ok held
  have own := named _ frame found
  exact Retains.set stored (own.symm ▸ found) same history rfl rfl rfl

/-- One access to a page, or none. -/
def Performs (pool after : BufferPool) : Option Nat → Prop
  | some page => Accesses pool after page
  | none => Retains pool after

/-- Most operations access no page. -/
theorem Retains.performs {op : Op} (other : op.page = none)
    (retains : Retains pool (perform pool op).2) :
    Performs pool (perform pool op).2 (accessed pool op) := by
  have nothing : accessed pool op = none := by
    rw [accessed]
    split
    · exact other
    · rfl
  rw [nothing]
  exact retains

/-- What an operation records: one access to its page if it succeeds and accesses one. -/
theorem perform_spec (named : Named pool) (op : Op) :
    Performs pool (perform pool op).2 (accessed pool op) := by
  cases op with
  | fetch page_id =>
    have settles := fetchPage_settles named page_id
    rw [accessed, perform]
    generalize pool.fetchPage page_id = answer at settles ⊢
    obtain ⟨answer | answer, after⟩ := answer
    · exact settles
    · exact settles
  | new page_id =>
    have settles := newPage_settles named page_id
    rw [accessed, perform]
    generalize pool.newPage page_id = answer at settles ⊢
    obtain ⟨answer | answer, after⟩ := answer
    · exact settles
    · exact settles
  | unpin page_id dirty =>
    apply Retains.performs rfl
    rw [perform, BufferPool.unpinPage]
    cases held : pool.resident page_id with
    | error refused => exact Retains.refl pool
    | ok frame =>
      rw [ok_bind]
      split
      · exact Retains.refl pool
      · exact resident_retains named held rfl rfl
  | markDirty page_id =>
    apply Retains.performs rfl
    rw [perform, BufferPool.markDirty]
    cases held : pool.resident page_id with
    | error refused => exact Retains.refl pool
    | ok frame => exact resident_retains named held rfl rfl
  | flush page_id =>
    apply Retains.performs rfl
    rw [perform, BufferPool.flushPage]
    cases held : pool.resident page_id with
    | error refused => exact Retains.refl pool
    | ok frame =>
      have found := Session.resident_ok held
      have own := named _ frame found
      exact flushFrame_retains (own.symm ▸ found)
  | flushAll => exact Retains.performs rfl (flushAll_retains named)
  | modify page_id data =>
    apply Retains.performs rfl
    rw [perform, BufferPool.modify]
    cases held : pool.frames.get? page_id with
    | none => exact Retains.refl pool
    | some frame =>
      have own := named page_id frame held
      subst own
      exact Retains.set { frame with data := data } held rfl rfl rfl rfl rfl

/-! ## The victim -/

theorem before_irrefl (pair : Int × Int) : before pair pair = false := by
  simp [before]

theorem before_trans {first second third : Int × Int} (low : before first second = true)
    (high : before second third = true) : before first third = true := by
  simp only [before, Bool.or_eq_true, decide_eq_true_eq, Bool.and_eq_true] at low high ⊢
  omega

/-- No frame without pins comes before the victim. -/
theorem victim_least {victim : PageFrame} (chosen : pool.chooseVictim = .ok victim) {frame : PageFrame}
    (held : frame ∈ pool.frames.values) (unpinned : frame.pin_count = 0) :
    before (frame.key pool.lru_k) (victim.key pool.lru_k) = false := by
  have among : frame ∈ pool.frames.values.filter fun frame => frame.pin_count = 0 :=
    List.mem_filter.mpr ⟨held, decide_eq_true unpinned⟩
  rw [BufferPool.chooseVictim] at chosen
  split at chosen
  · cases chosen
  · next first candidates listed =>
    rw [listed] at among
    cases chosen
    have least := foldl_invariant
      (fun least frame =>
        if before (frame.key pool.lru_k) (least.key pool.lru_k) then frame else least)
      (fun done least => ∀ seen ∈ first :: done,
        before (seen.key pool.lru_k) (least.key pool.lru_k) = false)
      (fun done frame least holds => by
        intro seen member
        rcases List.mem_append.mp (show seen ∈ (first :: done) ++ [frame] from member) with
          earlier | here
        · split
          · next less =>
            rw [Bool.eq_false_iff]
            intro lower
            exact absurd (before_trans lower less) (Bool.eq_false_iff.mp (holds seen earlier))
          · exact holds seen earlier
        · rw [List.mem_singleton.mp here]
          split
          · exact before_irrefl _
          · next other => exact Bool.eq_false_iff.mpr other)
      candidates first (List.forall_mem_singleton.mpr (before_irrefl _))
    exact least frame among

end Records

/-! ## Runs -/

namespace Run

variable {run : Run}

theorem Recorded.start {capacity_pages page_size lru_k : Int} {backing : Nat → List UInt8}
    {pool : BufferPool}
    (created : BufferPool.create capacity_pages page_size lru_k backing = .ok pool) :
    (start pool).Recorded := by
  simp only [BufferPool.create] at created
  split at created
  · cases created
  · split at created
    · cases created
    · split at created
      · cases created
      · next positive =>
        cases created
        refine ⟨rfl, ?_, ?_, ?_, ?_, fun _ _ => rfl, ?_, ?_⟩
        · show 0 < lru_k.toNat
          omega
        · rintro _ _ ⟨⟩
        · rintro _ _ ⟨⟩
        · rintro _ _ ⟨⟩
        · rintro _ _ ⟨⟩
        · rintro _ _ _ ⟨⟩

/-- The times of the pages that were not accessed. -/
def kept (run : Run) (after : BufferPool) (page_id : Nat) : List Nat :=
  if page_id ∈ after.frames.keys then run.times page_id else []

theorem mem_kept {after : BufferPool} {page_id time : Nat} (member : time ∈ run.kept after page_id) :
    time ∈ run.times page_id := by
  rw [kept] at member
  split at member
  · exact member
  · cases member

theorem kept_held {after : BufferPool} {page_id : Nat} {frame : PageFrame}
    (held : after.frames.get? page_id = some frame) : run.kept after page_id = run.times page_id :=
  if_pos ((Dict.mem_keys _ _).mpr ⟨frame, held⟩)

theorem kept_gone {after : BufferPool} {page_id : Nat} (gone : after.frames.get? page_id = none) :
    run.kept after page_id = [] := by
  rw [kept, if_neg]
  intro held
  obtain ⟨frame, found⟩ := (Dict.mem_keys _ _).mp held
  rw [gone] at found
  cases found

theorem Recorded.retains (recorded : run.Recorded) {after : BufferPool}
    (retains : Retains run.pool after) :
    Recorded { pool := after, now := run.now, times := run.kept after } := by
  obtain ⟨lru_k, clock, frames⟩ := retains
  refine ⟨clock.trans recorded.clock, lru_k ▸ recorded.positive, ?_, ?_, ?_, ?_, ?_, ?_⟩
  · exact Retains.named ⟨lru_k, clock, frames⟩ recorded.named
  · intro page_id frame held
    obtain ⟨earlier, heldBefore, _, history⟩ := frames page_id frame held
    simp only [kept_held held, history, lru_k]
    exact recorded.history page_id earlier heldBefore
  · intro page_id frame held
    obtain ⟨earlier, heldBefore, _, _⟩ := frames page_id frame held
    simp only [kept_held held]
    exact recorded.some_access page_id earlier heldBefore
  · intro page_id gone
    exact kept_gone gone
  · intro page_id time member
    exact recorded.past page_id time (mem_kept member)
  · intro first second time inFirst inSecond
    exact recorded.apart first second time (mem_kept inFirst) (mem_kept inSecond)

theorem Recorded.accesses (recorded : run.Recorded) {after : BufferPool} {page : Nat}
    (accesses : Accesses run.pool after page) :
    Recorded { pool := after, now := run.now + 1
               times := fun page_id =>
                if page_id = page then run.times page_id ++ [run.now + 1]
                else run.kept after page_id } := by
  obtain ⟨lru_k, clock, ⟨own, held, named, history⟩, frames⟩ := accesses
  have mem_times {page_id time : Nat} (member : time ∈ if page_id = page then
      run.times page_id ++ [run.now + 1] else run.kept after page_id) :
      time ∈ run.times page_id ∨ page_id = page ∧ time = run.now + 1 := by
    split at member
    · next same =>
      rcases List.mem_append.mp member with earlier | latest
      · exact .inl earlier
      · exact .inr ⟨same, List.mem_singleton.mp latest⟩
    · exact .inl (mem_kept member)
  refine ⟨by simp only [clock, recorded.clock], lru_k ▸ recorded.positive, ?_, ?_, ?_, ?_, ?_, ?_⟩
  · intro page_id frame found
    by_cases same : page_id = page
    · subst same
      obtain rfl : own = frame := Option.some.inj (held.symm.trans found)
      exact named
    · obtain ⟨earlier, heldBefore, sameName, _⟩ := frames page_id same frame found
      exact sameName.trans (recorded.named page_id earlier heldBefore)
  · intro page_id frame found
    by_cases same : page_id = page
    · subst same
      obtain rfl : own = frame := Option.some.inj (held.symm.trans found)
      simp only [if_true, history, lru_k, recorded.clock]
      cases before : run.pool.frames.get? page_id with
      | none =>
        rw [recorded.gone page_id before]
        rfl
      | some earlier =>
        rw [Option.map_some, Option.getD_some, recorded.history page_id earlier before]
        exact recent_append _ _ _
    · obtain ⟨earlier, heldBefore, _, past⟩ := frames page_id same frame found
      simp only [if_neg same, kept_held found, past, lru_k]
      exact recorded.history page_id earlier heldBefore
  · intro page_id frame found
    by_cases same : page_id = page
    · simp [same]
    · obtain ⟨earlier, heldBefore, _, _⟩ := frames page_id same frame found
      simp only [if_neg same, kept_held found]
      exact recorded.some_access page_id earlier heldBefore
  · intro page_id gone
    have other : page_id ≠ page := by
      rintro rfl
      rw [held] at gone
      cases gone
    simp only [if_neg other]
    exact kept_gone gone
  · intro page_id time member
    rcases mem_times member with earlier | ⟨_, latest⟩
    · exact Nat.le_succ_of_le (recorded.past page_id time earlier)
    · exact Nat.le_of_eq latest
  · intro first second time inFirst inSecond
    rcases mem_times inFirst with early | ⟨firstIs, late⟩
    · rcases mem_times inSecond with earlyToo | ⟨_, lateToo⟩
      · exact recorded.apart first second time early earlyToo
      · have bound := recorded.past first time early
        omega
    · rcases mem_times inSecond with earlyToo | ⟨secondIs, _⟩
      · have bound := recorded.past second time earlyToo
        omega
      · rw [firstIs, secondIs]

theorem Recorded.next (recorded : run.Recorded) (op : Op) : (run.next op).Recorded := by
  have spec := perform_spec recorded.named op
  rw [Run.next]
  cases found : accessed run.pool op with
  | none =>
    rw [found] at spec
    exact recorded.retains spec
  | some page =>
    rw [found] at spec
    exact recorded.accesses spec

/-- The frames of every reachable pool keep the last accesses. -/
theorem Reached.recorded (reached : Reached run) : run.Recorded := by
  induction reached with
  | start created => exact Recorded.start created
  | next op _ recorded => exact recorded.next op

/-- What is reached by one operation after another is reached. -/
theorem Reached.after (reached : Reached run) (ops : List Op) : Reached (ops.foldl Run.next run) := by
  induction ops generalizing run with
  | nil => exact reached
  | cons op ops inductionHypothesis => exact inductionHypothesis (reached.next op)

/-! ## Distances -/

/-- The access before `lru_k` accesses, of a page that was accessed so often. -/
def kth (run : Run) (page_id : Nat) : Nat :=
  (run.times page_id).getD ((run.times page_id).length - run.pool.lru_k) 0

theorem Recorded.kth_mem (recorded : run.Recorded) {page_id : Nat}
    (enough : run.pool.lru_k ≤ (run.times page_id).length) : run.kth page_id ∈ run.times page_id := by
  have positive := recorded.positive
  have inside : (run.times page_id).length - run.pool.lru_k < (run.times page_id).length := by omega
  rw [kth, List.getD_eq_getElem?_getD, List.getElem?_eq_getElem inside]
  exact List.getElem_mem inside

theorem latest_mem {page_id : Nat} (accessed : run.times page_id ≠ []) :
    run.latest page_id ∈ run.times page_id := by
  rw [latest, List.getLastD_eq_getLast?, List.getLast?_eq_some_getLast accessed, Option.getD_some]
  exact List.getLast_mem accessed

/-- The key of a frame, from all accesses to its page. -/
theorem Recorded.key (recorded : run.Recorded) {page_id : Nat} {frame : PageFrame}
    (held : run.pool.frames.get? page_id = some frame) :
    frame.key run.pool.lru_k =
      ((if run.pool.lru_k ≤ (run.times page_id).length then (run.kth page_id : Int) else -1),
        (run.latest page_id : Int)) := by
  have some_access := recorded.some_access page_id frame held
  have size : run.pool.lru_k ≤ frame.access_history.length ↔
      run.pool.lru_k ≤ (run.times page_id).length := by
    rw [recorded.history page_id frame held, recent_length]
    omega
  have first : frame.access_history.headD 0 = run.kth page_id := by
    rw [recorded.history page_id frame held, recent_head, kth]
  have last : frame.access_history.getLast? = some (run.latest page_id) := by
    rw [recorded.history page_id frame held, recent_last recorded.positive, latest,
      List.getLastD_eq_getLast?, List.getLast?_eq_some_getLast some_access, Option.getD_some]
  simp only [PageFrame.key, size, first, last, Option.map_some, Option.getD_some,
    Int.ofNat_eq_natCast]

theorem distance_few {page_id : Nat} (few : ¬ run.pool.lru_k ≤ (run.times page_id).length) :
    run.distance page_id = none := if_pos (Nat.lt_of_not_le few)

theorem distance_enough {page_id : Nat} (enough : run.pool.lru_k ≤ (run.times page_id).length) :
    run.distance page_id = some (run.now - run.kth page_id) :=
  if_neg (Nat.not_lt_of_le enough)

/-- A page that does not come before another is nearer. -/
theorem Recorded.farther (recorded : run.Recorded) {page_id other : Nat} {victim frame : PageFrame}
    (heldVictim : run.pool.frames.get? page_id = some victim)
    (held : run.pool.frames.get? other = some frame) (different : other ≠ page_id)
    (least : before (frame.key run.pool.lru_k) (victim.key run.pool.lru_k) = false) :
    run.Farther page_id other := by
  rw [recorded.key heldVictim, recorded.key held] at least
  simp only [before, Bool.or_eq_false_iff, Bool.and_eq_false_imp, decide_eq_false_iff_not,
    decide_eq_true_eq] at least
  obtain ⟨kthLeast, latestLeast⟩ := least
  by_cases enough : run.pool.lru_k ≤ (run.times page_id).length
  · rw [if_pos enough] at kthLeast
    by_cases enoughOther : run.pool.lru_k ≤ (run.times other).length
    · rw [if_pos enoughOther] at kthLeast
      -- an access is to one page, so the two accesses differ
      have apart : run.kth other ≠ run.kth page_id := fun same => different
        (recorded.apart other page_id _ (recorded.kth_mem enoughOther) (same ▸ recorded.kth_mem enough))
      have bound := recorded.past other _ (recorded.kth_mem enoughOther)
      rw [Farther, distance_enough enough, distance_enough enoughOther]
      simp only
      omega
    · rw [if_neg enoughOther] at kthLeast
      omega
  · by_cases enoughOther : run.pool.lru_k ≤ (run.times other).length
    · rw [Farther, distance_few enough, distance_enough enoughOther]
      trivial
    · have apart : run.latest other ≠ run.latest page_id := fun same => different
        (recorded.apart other page_id _ (latest_mem (recorded.some_access other frame held))
          (same ▸ latest_mem (recorded.some_access page_id victim heldVictim)))
      simp only [if_neg enough, if_neg enoughOther, true_implies] at latestLeast
      rw [Farther, distance_few enough, distance_few enoughOther]
      simp only
      omega

end Run

/-- The page that makes room in a pool that was reached is one without pins, and it is farther than
every other page without pins. -/
theorem victim_farthest {run : Run} (reached : Run.Reached run) (misses : Nat) {after : BufferPool}
    (full : ¬ run.pool.frames.keys.length < run.pool.capacity_pages)
    (made : BufferPool.ensureCapacity { run.pool with misses } = .ok after) :
    ∃ page_id victim, run.pool.frames.get? page_id = some victim ∧ victim.pin_count = 0 ∧
      (∀ other, other ∈ after.frames.keys ↔ other ∈ run.pool.frames.keys ∧ other ≠ page_id) ∧
      ∀ other frame, run.pool.frames.get? other = some frame → frame.pin_count = 0 →
        other ≠ page_id → run.Farther page_id other := by
  have recorded := reached.recorded
  have named : Named { run.pool with misses } := recorded.named
  obtain ⟨victim, chosen, dropped⟩ := (ensureCapacity_spec named made).2 full
  obtain ⟨⟨page_id, found⟩, unpinned⟩ := Session.victim_unpinned chosen
  have held : run.pool.frames.get? page_id = some victim := found
  rw [recorded.named page_id victim held] at dropped
  refine ⟨page_id, victim, held, unpinned, dropped, ?_⟩
  intro other frame heldOther free different
  have member : frame ∈ run.pool.frames.values := (Dict.mem_values _ _).mpr ⟨other, heldOther⟩
  exact recorded.farther held heldOther different (victim_least chosen member free)

/-- A pool of two pages over a store of zeros. -/
def smallPool : BufferPool :=
  { capacity_pages := 2, page_size := 1, lru_k := 2, frames := Dict.empty, clock := 0, hits := 0
    misses := 0, evictions := 0, backing := fun _ => [0] }

/-- The first page is fetched before and after the second. -/
def fetchedAgain : Run :=
  [.fetch 0, .unpin 0 false, .fetch 1, .unpin 1 false, .fetch 0, .unpin 0 false].foldl Run.next
    (Run.start smallPool)

/-- The page that was fetched once makes room, though the other was fetched first. -/
theorem fetched_once_dropped : ∃ after,
    BufferPool.ensureCapacity { fetchedAgain.pool with misses := 3 } = .ok after ∧
    after.frames.keys = [0] ∧
    ∃ page_id victim, fetchedAgain.pool.frames.get? page_id = some victim ∧ victim.pin_count = 0 ∧
      (∀ other, other ∈ after.frames.keys ↔
        other ∈ fetchedAgain.pool.frames.keys ∧ other ≠ page_id) ∧
      ∀ other frame, fetchedAgain.pool.frames.get? other = some frame → frame.pin_count = 0 →
        other ≠ page_id → fetchedAgain.Farther page_id other := by
  have started : Run.Reached (Run.start smallPool) :=
    .start (show BufferPool.create 2 1 2 (fun _ => [0]) = .ok smallPool from rfl)
  have reached : Run.Reached fetchedAgain := started.after _
  obtain ⟨after, made, left⟩ : ∃ after,
      BufferPool.ensureCapacity { fetchedAgain.pool with misses := 3 } = .ok after ∧
        after.frames.keys = [0] := ⟨_, rfl, by decide⟩
  exact ⟨after, made, left, victim_farthest reached 3 (by decide) made⟩

end CaracalDB.Pool
