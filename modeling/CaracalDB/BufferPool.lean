import CaracalDB.Dict
import CaracalDB.Diagnostics

/-!
# The pool of pages

A pool keeps a bounded number of pages in memory over a backing store. What it shows
of a page is the frame, if there is one, else the page of the store, filled up with
zeros. A page in a frame that is neither dirty nor modified without a mark is the page
of the store, so a frame without pins can be dropped: the pool is a map of pages to the
bytes last written to them.

Frames are modified in place by a client that holds a pin, and keep their size.
-/

namespace CaracalDB

namespace Dict

variable {Key Value : Type} [DecidableEq Key]

/-- Storing under a key that is held keeps the number of keys. -/
theorem length_set_held (dict : Dict Key Value) {key : Key} (value : Value) (held : key ∈ dict.keys) :
    (dict.set key value).keys.length = dict.keys.length := by
  rw [keys_set, if_pos held]

theorem length_set_le (dict : Dict Key Value) (key : Key) (value : Value) :
    (dict.set key value).keys.length ≤ dict.keys.length + 1 := by
  rw [keys_set]
  split
  · exact Nat.le_succ _
  · exact Nat.le_of_eq (List.length_append.trans rfl)

theorem length_erase_lt (dict : Dict Key Value) {key : Key} (held : key ∈ dict.keys) :
    (dict.erase key).keys.length < dict.keys.length := by
  obtain ⟨entry, member, rfl⟩ := List.mem_map.mp held
  show ((dict.entries.filter fun entry' => decide (entry'.1 ≠ entry.1)).map Prod.fst).length <
    (dict.entries.map Prod.fst).length
  rw [List.length_map, List.length_map, List.length_filter_lt_length_iff_exists]
  exact ⟨entry, member, by simp⟩

end Dict

namespace Pool

/-- What a pool raises: `ValueError` or an error of the engine. -/
inductive Refused where
  | valueError (message : String)
  | caracal (error : CaracalError)
deriving DecidableEq

structure PageFrame where
  page_id : Nat
  data : List UInt8
  pin_count : Nat
  dirty : Bool
  access_history : List Nat
deriving DecidableEq

/-- A pool, with the pages of the backing store that its callbacks read and write. -/
structure BufferPool where
  capacity_pages : Nat
  page_size : Nat
  lru_k : Nat
  frames : Dict Nat PageFrame
  clock : Nat
  hits : Nat
  misses : Nat
  evictions : Nat
  backing : Nat → List UInt8

/-- `_page_id(page_id)` -/
def pageId (page_id : Int) : Except Refused Nat :=
  if page_id < 0 then .error (.valueError "page_id must be non-negative") else .ok page_id.toNat

/-- A page with zeros behind it. -/
def pad (page_size : Nat) (data : List UInt8) : List UInt8 :=
  data ++ List.replicate (page_size - data.length) 0

/-- `_page_data(data, page_size)` -/
def pageData (data : List UInt8) (page_size : Nat) : Except Refused (List UInt8) :=
  if page_size < data.length then
    .error (.caracal { code := "CDB-7005", message := "read page returned too many bytes" })
  else .ok (pad page_size data)

def notResident (page_id : Nat) : Refused :=
  .caracal { code := "CDB-7005", message := "page is not resident: " ++ toString page_id }

def notPinned (page_id : Nat) : Refused :=
  .caracal { code := "CDB-7005", message := "page is not pinned: " ++ toString page_id }

/-- The order of victims: the access before `lru_k` accesses, then the latest. -/
def PageFrame.key (lru_k : Nat) (frame : PageFrame) : Int × Int :=
  let kth_access : Int :=
    if lru_k ≤ frame.access_history.length then frame.access_history.headD 0 else -1
  let latest_access : Int := (frame.access_history.getLast?.map Int.ofNat).getD (-1)
  (kth_access, latest_access)

/-- The order of pairs. -/
def before (left right : Int × Int) : Bool :=
  left.1 < right.1 || (left.1 = right.1 && left.2 < right.2)

namespace BufferPool

/-- `BufferPool(capacity_pages, page_size, read_page, write_page, lru_k)` over a store. -/
def create (capacity_pages page_size lru_k : Int) (backing : Nat → List UInt8) :
    Except Refused BufferPool :=
  if capacity_pages ≤ 0 then .error (.valueError "capacity_pages must be positive")
  else if page_size ≤ 0 then .error (.valueError "page_size must be positive")
  else if lru_k ≤ 0 then .error (.valueError "lru_k must be positive")
  else .ok { capacity_pages := capacity_pages.toNat, page_size := page_size.toNat,
             lru_k := lru_k.toNat, frames := Dict.empty, clock := 0, hits := 0, misses := 0,
             evictions := 0, backing }

/-- `_record_access(frame)`; the frame is kept under its number. -/
def recordAccess (pool : BufferPool) (frame : PageFrame) : Except Refused PageFrame × BufferPool :=
  let history := frame.access_history ++ [pool.clock + 1]
  let recorded := { frame with access_history := history.drop (history.length - pool.lru_k) }
  (.ok recorded, { pool with clock := pool.clock + 1
                             frames := pool.frames.set recorded.page_id recorded })

/-- `_flush_frame(frame)` -/
def flushFrame (pool : BufferPool) (frame : PageFrame) : BufferPool :=
  if frame.dirty then
    { pool with backing := Function.update pool.backing frame.page_id frame.data
                frames := pool.frames.set frame.page_id { frame with dirty := false } }
  else pool

/-- `_choose_victim()` -/
def chooseVictim (pool : BufferPool) : Except Refused PageFrame :=
  match pool.frames.values.filter fun frame => frame.pin_count = 0 with
  | [] => .error (.caracal
      { code := "CDB-7005"
        message := "buffer pool has no evictable pages; all frames are pinned" })
  | first :: candidates => .ok (candidates.foldl
      (fun least frame =>
        if before (frame.key pool.lru_k) (least.key pool.lru_k) then frame else least) first)

/-- `_ensure_capacity()` -/
def ensureCapacity (pool : BufferPool) : Except Refused BufferPool :=
  if pool.frames.keys.length < pool.capacity_pages then .ok pool
  else do
    let victim ← pool.chooseVictim
    let flushed := pool.flushFrame victim
    return { flushed with frames := flushed.frames.erase victim.page_id
                          evictions := flushed.evictions + 1 }

def fetchPage (pool : BufferPool) (page_id : Int) : Except Refused PageFrame × BufferPool :=
  match pageId page_id with
  | .error refused => (.error refused, pool)
  | .ok normalized =>
    match pool.frames.get? normalized with
    | some frame =>
      { pool with hits := pool.hits + 1 }.recordAccess { frame with pin_count := frame.pin_count + 1 }
    | none =>
      let missed := { pool with misses := pool.misses + 1 }
      match missed.ensureCapacity with
      | .error refused => (.error refused, missed)
      | .ok roomy =>
        match pageData (roomy.backing normalized) roomy.page_size with
        | .error refused => (.error refused, roomy)
        | .ok data => roomy.recordAccess
            { page_id := normalized, data, pin_count := 1, dirty := false, access_history := [] }

def newPage (pool : BufferPool) (page_id : Int) : Except Refused PageFrame × BufferPool :=
  match pageId page_id with
  | .error refused => (.error refused, pool)
  | .ok normalized =>
    match pool.frames.get? normalized with
    | some existing =>
      pool.recordAccess { existing with pin_count := existing.pin_count + 1
                                        data := List.replicate pool.page_size 0
                                        dirty := true }
    | none =>
      match pool.ensureCapacity with
      | .error refused => (.error refused, pool)
      | .ok roomy => roomy.recordAccess
          { page_id := normalized, data := List.replicate roomy.page_size 0, pin_count := 1
            dirty := true, access_history := [] }

/-- The frame of a page that must be resident. -/
def resident (pool : BufferPool) (page_id : Int) : Except Refused PageFrame := do
  let normalized ← pageId page_id
  match pool.frames.get? normalized with
  | none => .error (notResident normalized)
  | some frame => .ok frame

def unpinPage (pool : BufferPool) (page_id : Int) (dirty : Bool) : Except Refused BufferPool := do
  let frame ← pool.resident page_id
  let unpinned := { frame with pin_count := frame.pin_count - 1, dirty := dirty || frame.dirty }
  if frame.pin_count = 0 then .error (notPinned frame.page_id)
  else .ok { pool with frames := pool.frames.set frame.page_id unpinned }

def markDirty (pool : BufferPool) (page_id : Int) : Except Refused BufferPool := do
  let frame ← pool.resident page_id
  return { pool with frames := pool.frames.set frame.page_id { frame with dirty := true } }

def flushPage (pool : BufferPool) (page_id : Int) : Except Refused BufferPool := do
  let frame ← pool.resident page_id
  return pool.flushFrame frame

/-- Flush the frame of a page, if there is one. -/
def flushHeld (pool : BufferPool) (page_id : Nat) : BufferPool :=
  match pool.frames.get? page_id with
  | none => pool
  | some frame => pool.flushFrame frame

def flushAll (pool : BufferPool) : BufferPool := pool.frames.keys.foldl flushHeld pool

/-- A client writes to the data of a frame. -/
def modify (pool : BufferPool) (page_id : Nat) (data : List UInt8) : BufferPool :=
  match pool.frames.get? page_id with
  | none => pool
  | some frame => { pool with frames := pool.frames.set page_id { frame with data := data } }

/-- What a pool shows of a page. -/
def view (pool : BufferPool) (page_id : Nat) : List UInt8 :=
  match pool.frames.get? page_id with
  | some frame => frame.data
  | none => pad pool.page_size (pool.backing page_id)

end BufferPool

/-! ## Clients -/

inductive Op where
  | fetch (page_id : Int)
  | new (page_id : Int)
  | unpin (page_id : Int) (dirty : Bool)
  | markDirty (page_id : Int)
  | flush (page_id : Int)
  | flushAll
  | modify (page_id : Nat) (data : List UInt8)

/-- The answer of a call that returns nothing, or fails and leaves the pool. -/
def settled (pool : BufferPool) : Except Refused BufferPool → Except Refused Unit × BufferPool
  | .ok after => (.ok (), after)
  | .error refused => (.error refused, pool)

/-- The answer of a call without its frame. -/
def silent (answer : Except Refused PageFrame × BufferPool) : Except Refused Unit × BufferPool :=
  (answer.1.map fun _ => (), answer.2)

def perform (pool : BufferPool) : Op → Except Refused Unit × BufferPool
  | .fetch page_id => silent (pool.fetchPage page_id)
  | .new page_id => silent (pool.newPage page_id)
  | .unpin page_id dirty => settled pool (pool.unpinPage page_id dirty)
  | .markDirty page_id => settled pool (pool.markDirty page_id)
  | .flush page_id => settled pool (pool.flushPage page_id)
  | .flushAll => (.ok (), pool.flushAll)
  | .modify page_id data => (.ok (), pool.modify page_id data)

/-- A pool, the bytes last written to every page, and the pages modified without a mark. -/
structure Session where
  pool : BufferPool
  written : Nat → List UInt8
  unmarked : List Nat

namespace Session

/-- Nothing is written yet: a page has the content of the backing store. -/
def start (pool : BufferPool) : Session :=
  { pool, written := fun page_id => pad pool.page_size (pool.backing page_id), unmarked := [] }

/-- What an operation that succeeds writes to the pages. -/
def writes (session : Session) : Op → Nat → List UInt8
  | .new page_id => Function.update session.written page_id.toNat
      (List.replicate session.pool.page_size 0)
  | .modify page_id data => Function.update session.written page_id data
  | _ => session.written

/-- The pages without a mark after an operation that succeeds. -/
def marks (session : Session) : Op → List Nat
  | .modify page_id _ => page_id :: session.unmarked
  | .new page_id | .markDirty page_id | .unpin page_id true =>
      session.unmarked.filter (· ≠ page_id.toNat)
  | _ => session.unmarked

def next (session : Session) (op : Op) : Session :=
  match perform session.pool op with
  | (.ok (), after) => { pool := after, written := session.writes op, unmarked := session.marks op }
  | (.error _, after) => { session with pool := after }

/-- A client modifies pages it holds a pin of, and marks a page before its last pin is gone. -/
def Allows (session : Session) : Op → Prop
  | .modify page_id data => data.length = session.pool.page_size ∧
      ∃ frame, session.pool.frames.get? page_id = some frame ∧ 0 < frame.pin_count
  | .unpin page_id false => ∀ frame, session.pool.frames.get? page_id.toNat = some frame →
      frame.pin_count = 1 → page_id.toNat ∉ session.unmarked
  | _ => True

/-- The sessions of a pool that was created over a store. -/
inductive Reached : Session → Prop where
  | start {capacity_pages page_size lru_k : Int} {backing : Nat → List UInt8} {pool : BufferPool} :
      BufferPool.create capacity_pages page_size lru_k backing = .ok pool → Reached (start pool)
  | next {session : Session} (op : Op) :
      Reached session → session.Allows op → Reached (session.next op)

/-- How a pool holds the bytes last written to its pages. -/
structure Holds (session : Session) : Prop where
  bounded : session.pool.frames.keys.length ≤ session.pool.capacity_pages
  positive : 0 < session.pool.capacity_pages
  named : ∀ page_id frame, session.pool.frames.get? page_id = some frame → frame.page_id = page_id
  sized : ∀ page_id frame, session.pool.frames.get? page_id = some frame →
    frame.data.length = session.pool.page_size
  shown : ∀ page_id, session.pool.view page_id = session.written page_id
  clean : ∀ page_id frame, session.pool.frames.get? page_id = some frame → frame.dirty = false →
    page_id ∉ session.unmarked →
      frame.data = pad session.pool.page_size (session.pool.backing page_id)
  pinned : ∀ page_id ∈ session.unmarked, ∃ frame,
    session.pool.frames.get? page_id = some frame ∧ 0 < frame.pin_count

variable {session : Session}

/-- A frame that is stored holds the bytes last written to its page. -/
theorem Holds.store (holds : session.Holds) (frame : PageFrame) {written : Nat → List UInt8}
    {unmarked : List Nat} (clock : Nat)
    (room : frame.page_id ∈ session.pool.frames.keys ∨
      session.pool.frames.keys.length < session.pool.capacity_pages)
    (sized : frame.data.length = session.pool.page_size)
    (shown : frame.data = written frame.page_id)
    (others : ∀ other, other ≠ frame.page_id → written other = session.written other)
    (clean : frame.dirty = false → frame.page_id ∉ unmarked →
      frame.data = pad session.pool.page_size (session.pool.backing frame.page_id))
    (pinned : frame.page_id ∈ unmarked → 0 < frame.pin_count)
    (marked : ∀ other, other ≠ frame.page_id → (other ∈ unmarked ↔ other ∈ session.unmarked)) :
    Holds { pool := { session.pool with clock, frames := session.pool.frames.set frame.page_id frame }
            written, unmarked } := by
  refine ⟨?_, holds.positive, ?_, ?_, ?_, ?_, ?_⟩
  · rcases room with held | free
    · exact Nat.le_trans (Nat.le_of_eq (Dict.length_set_held _ frame held)) holds.bounded
    · exact Nat.le_trans (Dict.length_set_le _ _ frame) free
  · intro page_id other found
    simp only [Dict.get_set] at found
    split at found
    · next same => cases found; exact same.symm
    · exact holds.named page_id other found
  · intro page_id other found
    simp only [Dict.get_set] at found
    split at found
    · cases found; exact sized
    · exact holds.sized page_id other found
  · intro page_id
    by_cases same : page_id = frame.page_id
    · simp only [BufferPool.view, Dict.get_set, same, if_true, shown]
    · have before := holds.shown page_id
      simp only [BufferPool.view] at before
      simp only [BufferPool.view, Dict.get_set, same, if_false]
      exact before.trans (others page_id same).symm
  · intro page_id other found isClean free
    simp only [Dict.get_set] at found
    split at found
    · next same =>
      cases found
      subst same
      exact clean isClean free
    · next different =>
      exact holds.clean page_id other found isClean fun member =>
        free ((marked page_id different).mpr member)
  · intro page_id member
    by_cases same : page_id = frame.page_id
    · subst same
      exact ⟨frame, Dict.get_set_self _ _ _, pinned member⟩
    · obtain ⟨other, found, pins⟩ := holds.pinned page_id ((marked page_id same).mp member)
      exact ⟨other, (Dict.get_set_of_ne _ same _).trans found, pins⟩

/-- Counting does not change what a pool holds. -/
theorem Holds.counted (holds : session.Holds) (hits misses evictions : Nat) :
    Holds { session with pool := { session.pool with hits, misses, evictions } } :=
  ⟨holds.bounded, holds.positive, holds.named, holds.sized, holds.shown, holds.clean, holds.pinned⟩

theorem Holds.key (holds : session.Holds) {page_id : Nat} {frame : PageFrame}
    (found : session.pool.frames.get? page_id = some frame) :
    session.pool.frames.get? frame.page_id = some frame ∧
      frame.page_id ∈ session.pool.frames.keys := by
  rw [holds.named page_id frame found]
  exact ⟨found, (Dict.mem_keys _ _).mpr ⟨frame, found⟩⟩

theorem Holds.data (holds : session.Holds) {page_id : Nat} {frame : PageFrame}
    (found : session.pool.frames.get? page_id = some frame) :
    frame.data = session.written page_id := by
  rw [← holds.shown, BufferPool.view, found]

theorem pad_sized {page_size : Nat} {data : List UInt8} (sized : data.length = page_size) :
    pad page_size data = data := by
  rw [pad, sized, Nat.sub_self, List.replicate_zero, List.append_nil]

theorem pageData_ok {data page : List UInt8} {page_size : Nat}
    (read : pageData data page_size = .ok page) :
    page = pad page_size data ∧ page.length = page_size := by
  rw [pageData] at read
  split at read
  · cases read
  · next small =>
    cases read
    refine ⟨rfl, ?_⟩
    rw [pad, List.length_append, List.length_replicate]
    omega

/-- Flushing a resident frame changes no page that is shown. -/
theorem Holds.flush (holds : session.Holds) {page_id : Nat} {frame : PageFrame}
    (found : session.pool.frames.get? page_id = some frame) :
    Holds { session with pool := session.pool.flushFrame frame } := by
  obtain ⟨own, held⟩ := holds.key found
  rw [BufferPool.flushFrame]
  by_cases dirty : frame.dirty = true
  · rw [if_pos dirty]
    have sized := holds.sized _ frame own
    -- First the store: the page of a resident frame is not shown from there.
    have written : Holds { session with pool := { session.pool with
        backing := Function.update session.pool.backing frame.page_id frame.data } } := by
      refine ⟨holds.bounded, holds.positive, holds.named, holds.sized, ?_, ?_, holds.pinned⟩
      · intro other
        rw [← holds.shown other]
        by_cases same : other = frame.page_id
        · subst same
          simp only [BufferPool.view, own]
        · simp only [BufferPool.view, Function.update_of_ne same]
      · intro other frame' found' isClean free
        by_cases same : other = frame.page_id
        · subst same
          obtain rfl : frame = frame' := Option.some.inj (own.symm.trans found')
          exact absurd (dirty.symm.trans isClean) (by decide)
        · show frame'.data = pad session.pool.page_size
            (Function.update session.pool.backing frame.page_id frame.data other)
          rw [Function.update_of_ne same]
          exact holds.clean other frame' found' isClean free
    refine written.store { frame with dirty := false } session.pool.clock (.inl held) sized
      (show frame.data = session.written frame.page_id from holds.data own) (fun _ _ => rfl)
      (fun _ _ => ?_) (fun member => ?_) fun _ _ => Iff.rfl
    · show frame.data = pad session.pool.page_size
        (Function.update session.pool.backing frame.page_id frame.data frame.page_id)
      rw [Function.update_self, pad_sized sized]
    · obtain ⟨frame', found', pins⟩ := holds.pinned _ member
      obtain rfl : frame = frame' := Option.some.inj (own.symm.trans found')
      exact pins
  · rw [if_neg dirty]
    exact holds

/-- A victim is a resident frame without pins. -/
theorem victim_unpinned {pool : BufferPool} {victim : PageFrame}
    (chosen : pool.chooseVictim = .ok victim) :
    (∃ page_id, pool.frames.get? page_id = some victim) ∧ victim.pin_count = 0 := by
  have member : victim ∈ pool.frames.values.filter fun frame => frame.pin_count = 0 := by
    rw [BufferPool.chooseVictim] at chosen
    split at chosen
    · cases chosen
    · next first candidates listed =>
      cases chosen
      rw [listed]
      suffices among : ∀ (rest : List PageFrame) (least : PageFrame),
          least ∈ first :: candidates → (∀ frame ∈ rest, frame ∈ first :: candidates) →
          rest.foldl (fun least frame => if before (frame.key pool.lru_k) (least.key pool.lru_k)
            then frame else least) least ∈ first :: candidates from
        among candidates first List.mem_cons_self fun _ later => List.mem_cons_of_mem _ later
      intro rest
      induction rest with
      | nil => exact fun _ held _ => held
      | cons frame rest inductionHypothesis =>
        intro least held inside
        obtain ⟨here, later⟩ := List.forall_mem_cons.mp inside
        have either (less : Bool) : (if less then frame else least) ∈ first :: candidates := by
          cases less
          · exact held
          · exact here
        exact inductionHypothesis _ (either _) later
  obtain ⟨held, free⟩ := List.mem_filter.mp member
  exact ⟨(Dict.mem_values _ _).mp held, of_decide_eq_true free⟩

theorem flushFrame_get (pool : BufferPool) (frame : PageFrame) {other : Nat}
    (different : other ≠ frame.page_id) :
    (pool.flushFrame frame).frames.get? other = pool.frames.get? other := by
  rw [BufferPool.flushFrame]
  split
  · exact Dict.get_set_of_ne _ different _
  · rfl

/-- Making room drops at most one frame, without pins, and changes no page that is shown. -/
theorem Holds.roomy (holds : session.Holds) {roomy : BufferPool}
    (made : session.pool.ensureCapacity = .ok roomy) :
    Holds { session with pool := roomy } ∧ roomy.page_size = session.pool.page_size ∧
      roomy.frames.keys.length < roomy.capacity_pages ∧
      (∀ page_id frame, session.pool.frames.get? page_id = some frame → 0 < frame.pin_count →
        roomy.frames.get? page_id = some frame) ∧
      ∀ page_id, session.pool.frames.get? page_id = none → roomy.frames.get? page_id = none := by
  rw [BufferPool.ensureCapacity] at made
  split at made
  · next free =>
    cases made
    exact ⟨holds, rfl, free, fun _ _ found _ => found, fun _ absent => absent⟩
  · next full =>
    cases chosen : session.pool.chooseVictim with
    | error refused =>
      rw [chosen] at made
      cases made
    | ok victim =>
      rw [chosen] at made
      cases made
      obtain ⟨⟨page_id, found⟩, unpinned⟩ := victim_unpinned chosen
      obtain ⟨own, held⟩ := holds.key found
      have flushed := holds.flush own
      have sizes : (session.pool.flushFrame victim).page_size = session.pool.page_size ∧
          (session.pool.flushFrame victim).capacity_pages = session.pool.capacity_pages ∧
          (session.pool.flushFrame victim).frames.keys.length = session.pool.frames.keys.length := by
        rw [BufferPool.flushFrame]
        split
        · exact ⟨rfl, rfl, Dict.length_set_held _ _ held⟩
        · exact ⟨rfl, rfl, rfl⟩
      obtain ⟨size, capacity, count⟩ := sizes
      -- The frame that is dropped is clean, so the store has its page.
      obtain ⟨frame, flushedOwn, isClean, same⟩ : ∃ frame,
          (session.pool.flushFrame victim).frames.get? victim.page_id = some frame ∧
            frame.dirty = false ∧ frame.pin_count = victim.pin_count := by
        rw [BufferPool.flushFrame]
        by_cases dirty : victim.dirty = true
        · rw [if_pos dirty]
          exact ⟨_, Dict.get_set_self _ _ _, rfl, rfl⟩
        · rw [if_neg dirty]
          exact ⟨victim, own, Bool.eq_false_iff.mpr dirty, rfl⟩
      have free : victim.page_id ∉ session.unmarked := by
        intro member
        obtain ⟨frame', found', pins⟩ := holds.pinned _ member
        obtain rfl : victim = frame' := Option.some.inj (own.symm.trans found')
        omega
      have fewer := Dict.length_erase_lt (session.pool.flushFrame victim).frames
        ((Dict.mem_keys _ _).mpr ⟨frame, flushedOwn⟩)
      have bounded := holds.bounded
      refine ⟨⟨?_, flushed.positive, ?_, ?_, ?_, ?_, ?_⟩, size, ?_, ?_, ?_⟩
      · show ((session.pool.flushFrame victim).frames.erase victim.page_id).keys.length ≤
          (session.pool.flushFrame victim).capacity_pages
        omega
      · intro other frame' found'
        simp only [Dict.get_erase] at found'
        split at found'
        · cases found'
        · exact flushed.named other frame' found'
      · intro other frame' found'
        simp only [Dict.get_erase] at found'
        split at found'
        · cases found'
        · exact flushed.sized other frame' found'
      · intro other
        rw [← flushed.shown other]
        by_cases here : other = victim.page_id
        · subst here
          simp only [BufferPool.view, Dict.get_erase, if_true, flushedOwn]
          exact (flushed.clean _ frame flushedOwn isClean free).symm
        · simp only [BufferPool.view, Dict.get_erase, here, if_false]
      · intro other frame' found'
        simp only [Dict.get_erase] at found'
        split at found'
        · cases found'
        · exact flushed.clean other frame' found'
      · intro other member
        obtain ⟨frame', found', pins⟩ := flushed.pinned other member
        have different : other ≠ victim.page_id := fun here => free (here ▸ member)
        exact ⟨frame', by simp only [Dict.get_erase, different, if_false, found'], pins⟩
      · show ((session.pool.flushFrame victim).frames.erase victim.page_id).keys.length <
          (session.pool.flushFrame victim).capacity_pages
        omega
      · intro other frame' found' pins
        have different : other ≠ victim.page_id := by
          rintro rfl
          obtain rfl : victim = frame' := Option.some.inj (own.symm.trans found')
          omega
        simp only [Dict.get_erase, different, if_false, flushFrame_get _ _ different, found']
      · intro other absent
        have different : other ≠ victim.page_id := by
          rintro rfl
          rw [own] at absent
          cases absent
        simp only [Dict.get_erase, different, if_false, flushFrame_get _ _ different, absent]

/-! ## Operations -/

/-- A frame keeps its page when an access to it is recorded. -/
theorem Holds.record (holds : session.Holds) (frame : PageFrame) {written : Nat → List UInt8}
    {unmarked : List Nat}
    (room : frame.page_id ∈ session.pool.frames.keys ∨
      session.pool.frames.keys.length < session.pool.capacity_pages)
    (sized : frame.data.length = session.pool.page_size)
    (shown : frame.data = written frame.page_id)
    (others : ∀ other, other ≠ frame.page_id → written other = session.written other)
    (clean : frame.dirty = false → frame.page_id ∉ unmarked →
      frame.data = pad session.pool.page_size (session.pool.backing frame.page_id))
    (pinned : frame.page_id ∈ unmarked → 0 < frame.pin_count)
    (marked : ∀ other, other ≠ frame.page_id → (other ∈ unmarked ↔ other ∈ session.unmarked)) :
    Holds { pool := (session.pool.recordAccess frame).2, written, unmarked } :=
  holds.store { frame with access_history := _ } _ room sized shown others clean pinned
    marked

/-- Every frame with a pin stays. -/
def Keeps (pool after : BufferPool) : Prop :=
  ∀ page_id frame, pool.frames.get? page_id = some frame → 0 < frame.pin_count →
    ∃ later, after.frames.get? page_id = some later

theorem Keeps.refl (pool : BufferPool) : Keeps pool pool := fun _ frame found _ => ⟨frame, found⟩

/-- A frame that is stored beside or instead of another drops none. -/
theorem Keeps.set {pool after : BufferPool} {key : Nat} {value : PageFrame}
    (kept : after.frames = pool.frames.set key value) : Keeps pool after := by
  intro page_id frame found _
  rw [kept, Dict.get_set]
  by_cases same : page_id = key
  · exact ⟨value, if_pos same⟩
  · exact ⟨frame, (if_neg same).trans found⟩

theorem Keeps.flush (pool : BufferPool) (frame : PageFrame) : Keeps pool (pool.flushFrame frame) := by
  rw [BufferPool.flushFrame]
  split
  · exact Keeps.set rfl
  · exact Keeps.refl pool

theorem pageId_ok {page_id : Int} {number : Nat} (numbered : pageId page_id = .ok number) :
    number = page_id.toNat := by
  rw [pageId] at numbered
  split at numbered
  · cases numbered
  · exact (Except.ok.inj numbered).symm

theorem resident_ok {pool : BufferPool} {page_id : Int} {frame : PageFrame}
    (held : pool.resident page_id = .ok frame) : pool.frames.get? page_id.toNat = some frame := by
  rw [BufferPool.resident] at held
  cases numbered : pageId page_id with
  | error refused =>
    rw [numbered] at held
    cases held
  | ok number =>
    rw [numbered] at held
    obtain rfl := pageId_ok numbered
    cases found : pool.frames.get? page_id.toNat with
    | none =>
      simp only [bind, Except.bind, found] at held
      cases held
    | some other =>
      simp only [bind, Except.bind, found] at held
      exact congrArg some (Except.ok.inj held)

/-- A fetch shows the bytes last written to its page, and changes no page. -/
theorem Holds.fetch (holds : session.Holds) (page_id : Int) :
    (Holds { session with pool := (session.pool.fetchPage page_id).2 } ∧
        Keeps session.pool (session.pool.fetchPage page_id).2) ∧
      ∀ frame, (session.pool.fetchPage page_id).1 = .ok frame →
        frame.data = session.written page_id.toNat := by
  cases numbered : pageId page_id with
  | error refused =>
    have done : session.pool.fetchPage page_id = (.error refused, session.pool) := by
      simp only [BufferPool.fetchPage, numbered]
    rw [done]
    exact ⟨⟨holds, Keeps.refl _⟩, by rintro _ ⟨⟩⟩
  | ok number =>
    obtain rfl := pageId_ok numbered
    cases found : session.pool.frames.get? page_id.toNat with
    | some frame =>
      obtain ⟨own, held⟩ := holds.key found
      have hit := holds.counted (session.pool.hits + 1) session.pool.misses session.pool.evictions
      have done : session.pool.fetchPage page_id =
          BufferPool.recordAccess { session.pool with hits := session.pool.hits + 1 }
            { frame with pin_count := frame.pin_count + 1 } := by
        simp only [BufferPool.fetchPage, numbered, found]
      rw [done]
      refine ⟨⟨hit.record { frame with pin_count := frame.pin_count + 1 } (.inl held)
        (holds.sized _ frame own) (show frame.data = session.written frame.page_id from holds.data own)
        (fun _ _ => rfl) (holds.clean _ frame own) (fun _ => Nat.succ_pos _) fun _ _ => Iff.rfl,
        Keeps.set rfl⟩, fun answer answered => ?_⟩
      cases answered
      show frame.data = session.written page_id.toNat
      exact holds.data found
    | none =>
      have missed := holds.counted session.pool.hits (session.pool.misses + 1) session.pool.evictions
      cases made : BufferPool.ensureCapacity { session.pool with misses := session.pool.misses + 1 } with
      | error refused =>
        have done : session.pool.fetchPage page_id =
            (.error refused, { session.pool with misses := session.pool.misses + 1 }) := by
          simp only [BufferPool.fetchPage, numbered, found, made]
        rw [done]
        exact ⟨⟨missed, Keeps.refl session.pool⟩, by rintro _ ⟨⟩⟩
      | ok roomy =>
        obtain ⟨kept, size, free, stays, absent⟩ := missed.roomy made
        cases read : pageData (roomy.backing page_id.toNat) roomy.page_size with
        | error refused =>
          have done : session.pool.fetchPage page_id = (.error refused, roomy) := by
            simp only [BufferPool.fetchPage, numbered, found, made, read]
          rw [done]
          exact ⟨⟨kept, fun number frame held pins => ⟨frame, stays number frame held pins⟩⟩,
            by rintro _ ⟨⟩⟩
        | ok data =>
          let fetched : PageFrame :=
            { page_id := page_id.toNat, data, pin_count := 1, dirty := false, access_history := [] }
          have done : session.pool.fetchPage page_id = roomy.recordAccess fetched := by
            simp only [BufferPool.fetchPage, numbered, found, made, read]
            rfl
          obtain ⟨filled, sized⟩ := pageData_ok read
          have shown : data = session.written page_id.toNat := by
            have before := kept.shown page_id.toNat
            simp only [BufferPool.view, absent _ found] at before
            exact filled.trans before
          rw [done]
          refine ⟨⟨kept.record fetched (.inr free) sized shown (fun _ _ => rfl)
            (fun _ _ => filled) (fun _ => Nat.one_pos) fun _ _ => Iff.rfl,
            fun number frame held pins => ?_⟩, fun answer answered => ?_⟩
          · exact Keeps.set rfl number frame (stays number frame held pins) pins
          · cases answered
            exact shown

theorem next_ok {op : Op} {after : BufferPool} (done : perform session.pool op = (.ok (), after)) :
    session.next op =
      { pool := after, written := session.writes op, unmarked := session.marks op } := by
  rw [next, done]

theorem next_error {op : Op} {after : BufferPool} {refused : Refused}
    (done : perform session.pool op = (.error refused, after)) :
    session.next op = { session with pool := after } := by
  rw [next, done]

theorem mem_unmark {unmarked : List Nat} {page_id other : Nat} :
    other ∈ unmarked.filter (· ≠ page_id) ↔ other ∈ unmarked ∧ other ≠ page_id := by
  simp

/-- A new page is zeros. -/
theorem Holds.new (holds : session.Holds) (page_id : Int) :
    (session.next (.new page_id)).Holds ∧ Keeps session.pool (session.next (.new page_id)).pool := by
  cases numbered : pageId page_id with
  | error refused =>
    have done : perform session.pool (.new page_id) = (.error refused, session.pool) := by
      simp only [perform, BufferPool.newPage, numbered]
      rfl
    rw [next_error done]
    exact ⟨holds, Keeps.refl _⟩
  | ok number =>
    obtain rfl := pageId_ok numbered
    have unmark (other : Nat) (different : other ≠ page_id.toNat) :
        other ∈ session.marks (.new page_id) ↔ other ∈ session.unmarked := by
      rw [marks, mem_unmark]
      exact and_iff_left different
    have marked : page_id.toNat ∉ session.marks (.new page_id) := by
      rw [marks, mem_unmark]
      exact fun both => both.2 rfl
    have written (other : Nat) (different : other ≠ page_id.toNat) :
        session.writes (.new page_id) other = session.written other :=
      Function.update_of_ne different _ _
    have zeros : List.replicate session.pool.page_size 0 =
        session.writes (.new page_id) page_id.toNat := by
      rw [writes, Function.update_self]
    cases found : session.pool.frames.get? page_id.toNat with
    | some existing =>
      have named := holds.named _ existing found
      let renewed : PageFrame := { existing with pin_count := existing.pin_count + 1
                                                 data := List.replicate session.pool.page_size 0
                                                 dirty := true }
      have done : perform session.pool (.new page_id) =
          (.ok (), (session.pool.recordAccess renewed).2) := by
        simp only [perform, BufferPool.newPage, numbered, found]
        rfl
      rw [next_ok done]
      rw [← named] at unmark marked written zeros
      exact ⟨holds.record renewed (.inl (holds.key found).2) List.length_replicate zeros
        written (by rintro ⟨⟩) (fun member => absurd member marked) unmark, Keeps.set rfl⟩
    | none =>
      cases made : session.pool.ensureCapacity with
      | error refused =>
        have done : perform session.pool (.new page_id) = (.error refused, session.pool) := by
          simp only [perform, BufferPool.newPage, numbered, found, made]
          rfl
        rw [next_error done]
        exact ⟨holds, Keeps.refl _⟩
      | ok roomy =>
        obtain ⟨kept, size, free, stays, absent⟩ := holds.roomy made
        let fresh : PageFrame :=
          { page_id := page_id.toNat, data := List.replicate roomy.page_size 0, pin_count := 1
            dirty := true, access_history := [] }
        have done : perform session.pool (.new page_id) = (.ok (), (roomy.recordAccess fresh).2) := by
          simp only [perform, BufferPool.newPage, numbered, found, made]
          rfl
        rw [next_ok done]
        rw [← size] at zeros
        exact ⟨kept.record fresh (.inr free) List.length_replicate zeros written (by rintro ⟨⟩)
          (fun _ => Nat.one_pos) unmark,
          fun number frame held pins => Keeps.set rfl number frame (stays number frame held pins) pins⟩

/-- A pin less, perhaps with a mark. -/
theorem Holds.unpin (holds : session.Holds) (page_id : Int) (dirty : Bool)
    (allowed : session.Allows (.unpin page_id dirty)) :
    (session.next (.unpin page_id dirty)).Holds ∧
      Keeps session.pool (session.next (.unpin page_id dirty)).pool := by
  cases unpinned : session.pool.unpinPage page_id dirty with
  | error refused =>
    have done : perform session.pool (.unpin page_id dirty) = (.error refused, session.pool) := by
      simp only [perform, unpinned]
      rfl
    rw [next_error done]
    exact ⟨holds, Keeps.refl _⟩
  | ok after =>
    have done : perform session.pool (.unpin page_id dirty) = (.ok (), after) := by
      simp only [perform, unpinned]
      rfl
    rw [next_ok done]
    rw [BufferPool.unpinPage] at unpinned
    cases held : session.pool.resident page_id with
    | error refused =>
      rw [held] at unpinned
      cases unpinned
    | ok frame =>
      rw [held] at unpinned
      have found := resident_ok held
      have named := holds.named _ frame found
      obtain ⟨own, member⟩ := holds.key found
      by_cases none : frame.pin_count = 0
      · simp only [bind, Except.bind, none, if_true] at unpinned
        cases unpinned
      · simp only [bind, Except.bind, none, if_false] at unpinned
        cases unpinned
        let unpinned : PageFrame :=
          { frame with pin_count := frame.pin_count - 1, dirty := dirty || frame.dirty }
        refine ⟨holds.store unpinned
          session.pool.clock (.inl member) (holds.sized _ frame own)
          (show frame.data = session.written frame.page_id from holds.data own) (fun _ _ => rfl)
          ?_ ?_ ?_, Keeps.set rfl⟩
        · intro isClean free
          obtain ⟨noMark, clean⟩ := (Bool.or_eq_false_iff).mp isClean
          subst noMark
          exact holds.clean _ frame own clean free
        · intro unmarked
          cases dirty with
          | true =>
            rw [marks, mem_unmark] at unmarked
            exact absurd named unmarked.2
          | false =>
            show 0 < frame.pin_count - 1
            have last : frame.pin_count ≠ 1 := fun last => allowed frame found last (named ▸ unmarked)
            omega
        · intro other different
          cases dirty with
          | true =>
            rw [marks, mem_unmark]
            exact and_iff_left fun same => different (same.trans named.symm)
          | false => exact Iff.rfl

theorem Holds.markDirty (holds : session.Holds) (page_id : Int) :
    (session.next (.markDirty page_id)).Holds ∧
      Keeps session.pool (session.next (.markDirty page_id)).pool := by
  cases held : session.pool.resident page_id with
  | error refused =>
    have done : perform session.pool (.markDirty page_id) = (.error refused, session.pool) := by
      simp only [perform, BufferPool.markDirty, held]
      rfl
    rw [next_error done]
    exact ⟨holds, Keeps.refl _⟩
  | ok frame =>
    have done : perform session.pool (.markDirty page_id) = (.ok (), { session.pool with
        frames := session.pool.frames.set frame.page_id { frame with dirty := true } }) := by
      simp only [perform, BufferPool.markDirty, held]
      rfl
    have found := resident_ok held
    have named := holds.named _ frame found
    obtain ⟨own, member⟩ := holds.key found
    rw [next_ok done]
    refine ⟨holds.store { frame with dirty := true } session.pool.clock (.inl member)
      (holds.sized _ frame own)
      (show frame.data = session.written frame.page_id from holds.data own) (fun _ _ => rfl)
      nofun ?_ ?_, Keeps.set rfl⟩
    · intro unmarked
      rw [marks, mem_unmark] at unmarked
      exact absurd named unmarked.2
    · intro other different
      rw [marks, mem_unmark]
      exact and_iff_left fun same => different (same.trans named.symm)

theorem Holds.flushPage (holds : session.Holds) (page_id : Int) :
    (session.next (.flush page_id)).Holds ∧
      Keeps session.pool (session.next (.flush page_id)).pool := by
  cases held : session.pool.resident page_id with
  | error refused =>
    have done : perform session.pool (.flush page_id) = (.error refused, session.pool) := by
      simp only [perform, BufferPool.flushPage, held]
      rfl
    rw [next_error done]
    exact ⟨holds, Keeps.refl _⟩
  | ok frame =>
    have done : perform session.pool (.flush page_id) = (.ok (), session.pool.flushFrame frame) := by
      simp only [perform, BufferPool.flushPage, held]
      rfl
    rw [next_ok done]
    exact ⟨holds.flush (resident_ok held), Keeps.flush _ _⟩

/-- Every frame of a list of pages is flushed in turn. -/
theorem Holds.flushes (holds : session.Holds) (page_ids : List Nat) :
    Holds { session with pool := page_ids.foldl BufferPool.flushHeld session.pool } ∧
      ∀ page_id frame, session.pool.frames.get? page_id = some frame →
        ∃ later, (page_ids.foldl BufferPool.flushHeld session.pool).frames.get? page_id =
          some later := by
  induction page_ids generalizing session with
  | nil => exact ⟨holds, fun _ frame found => ⟨frame, found⟩⟩
  | cons first page_ids inductionHypothesis =>
    rw [List.foldl_cons, BufferPool.flushHeld]
    cases found : session.pool.frames.get? first with
    | none => exact inductionHypothesis holds
    | some frame =>
      obtain ⟨rest, stays⟩ := inductionHypothesis (holds.flush found)
      refine ⟨rest, fun page_id other held => ?_⟩
      by_cases same : page_id = frame.page_id
      · subst same
        by_cases dirty : frame.dirty = true
        · refine stays _ { frame with dirty := false } ?_
          simp only [BufferPool.flushFrame, dirty, if_true, Dict.get_set_self]
        · refine stays _ other ?_
          simp only [BufferPool.flushFrame, dirty, Bool.false_eq_true, if_false]
          exact held
      · exact stays page_id other ((flushFrame_get _ _ same).trans held)

/-- A client writes to a page it holds a pin of. -/
theorem Holds.modify (holds : session.Holds) (page_id : Nat) (data : List UInt8)
    (allowed : session.Allows (.modify page_id data)) :
    (session.next (.modify page_id data)).Holds ∧
      Keeps session.pool (session.next (.modify page_id data)).pool := by
  obtain ⟨sized, frame, found, pins⟩ := allowed
  have named := holds.named _ frame found
  have done : perform session.pool (.modify page_id data) = (.ok (), { session.pool with
      frames := session.pool.frames.set page_id { frame with data := data } }) := by
    simp only [perform, BufferPool.modify, found]
  have shown : data = session.writes (.modify page_id data) page_id := by
    rw [writes, Function.update_self]
  rw [next_ok done]
  subst named
  refine ⟨holds.store { frame with data := data } session.pool.clock
    (.inl (holds.key found).2) sized shown
    (fun other different => Function.update_of_ne different _ _) (fun _ free => ?_) (fun _ => pins)
    fun other different => ?_, Keeps.set rfl⟩
  · exact absurd List.mem_cons_self free
  · exact ⟨fun member => (List.mem_cons.mp member).resolve_left different, List.mem_cons_of_mem _⟩

/-- Every operation that a client may perform keeps what the pool holds, and pinned frames. -/
theorem Holds.next (holds : session.Holds) {op : Op} (allowed : session.Allows op) :
    (session.next op).Holds ∧ Keeps session.pool (session.next op).pool := by
  cases op with
  | fetch page_id =>
    have same : session.next (.fetch page_id) =
        { session with pool := (session.pool.fetchPage page_id).2 } := by
      rw [Session.next, perform, silent]
      cases (session.pool.fetchPage page_id).1 <;> rfl
    rw [same]
    exact (holds.fetch page_id).1
  | new page_id => exact holds.new page_id
  | unpin page_id dirty => exact holds.unpin page_id dirty allowed
  | markDirty page_id => exact holds.markDirty page_id
  | flush page_id => exact holds.flushPage page_id
  | flushAll =>
    obtain ⟨flushed, stays⟩ := holds.flushes session.pool.frames.keys
    exact ⟨flushed, fun page_id frame found _ => stays page_id frame found⟩
  | modify page_id data => exact holds.modify page_id data allowed

/-- A pool that was created shows its backing store. -/
theorem holds_start {capacity_pages page_size lru_k : Int} {backing : Nat → List UInt8}
    {pool : BufferPool}
    (created : BufferPool.create capacity_pages page_size lru_k backing = .ok pool) :
    (start pool).Holds := by
  rw [BufferPool.create] at created
  split at created
  · cases created
  · split at created
    · cases created
    · split at created
      · cases created
      · cases created
        refine ⟨Nat.zero_le _, ?_, nofun, nofun, fun _ => rfl, nofun, nofun⟩
        show 0 < capacity_pages.toNat
        omega

theorem Reached.holds (reached : session.Reached) : session.Holds := by
  induction reached with
  | start created => exact holds_start created
  | next _ _ allowed inductionHypothesis => exact (inductionHypothesis.next allowed).1

/-- A pool over a store is a map of pages: a fetch shows the bytes last written to its page or its
content in the store, no more frames are resident than the capacity, no operation drops a frame
with a pin, and an operation that raises changes no page. -/
theorem pages_kept (reached : session.Reached) :
    session.pool.frames.keys.length ≤ session.pool.capacity_pages ∧
      (∀ page_id frame, (session.pool.fetchPage page_id).1 = .ok frame →
        frame.data = session.written page_id.toNat) ∧
      (∀ op, session.Allows op → Keeps session.pool (session.next op).pool) ∧
      ∀ op refused, session.Allows op → (perform session.pool op).1 = .error refused →
        ∀ page_id, (perform session.pool op).2.view page_id = session.pool.view page_id ∧
          (perform session.pool op).2.view page_id = session.written page_id := by
  have holds := reached.holds
  refine ⟨holds.bounded, fun page_id => (holds.fetch page_id).2,
    fun op allowed => (holds.next allowed).2, fun op refused allowed failed page_id => ?_⟩
  have done : perform session.pool op = (.error refused, (perform session.pool op).2) :=
    Prod.ext failed rfl
  have after := (holds.next allowed).1
  rw [next_error done] at after
  exact ⟨(after.shown page_id).trans (holds.shown page_id).symm, after.shown page_id⟩

/-- A pool of one frame over an empty store. -/
def oneFrame : BufferPool :=
  { capacity_pages := 1, page_size := 2, lru_k := 2, frames := Dict.empty, clock := 0, hits := 0
    misses := 0, evictions := 0, backing := fun _ => [] }

/-- A page that was written, unpinned with a mark and dropped for another is fetched as written. -/
theorem dropped_page_kept :
    ∃ session : Session, session.Reached ∧ session.pool.frames.keys = [1] ∧
      ∃ frame, (session.pool.fetchPage 0).1 = .ok frame ∧ frame.data = [7, 8] := by
  have created : Reached (start oneFrame) :=
    .start (show BufferPool.create 1 2 2 (fun _ => []) = .ok oneFrame from rfl)
  have made := created.next (.new 0) trivial
  have modified := made.next (.modify 0 [7, 8]) ⟨rfl, _, rfl, by decide⟩
  have unpinned := modified.next (.unpin 0 true) trivial
  have dropped := unpinned.next (.fetch 1) trivial
  have free := dropped.next (.unpin 1 false) fun _ _ _ => by decide
  exact ⟨_, free, by decide, _, rfl, (pages_kept free).2.1 0 _ rfl⟩

end Session

end Pool

end CaracalDB
