import CaracalDB.CsrSafety

/-!
# Adjacency files in both languages

Both languages lay an adjacency out in the same bytes, and what the Rust reader accepts
the Python reader reads as well. The Rust writer checks the lengths of the arrays but
not that the flags announce the ids of edges, by which both readers look for them: so a
file that was written is read back exactly if the flags and the ids agree, as they do in
every adjacency that was built.
-/

namespace CaracalDB.Graph

open Bytes Crc32 Log

/-! ## The reader in Python -/

/-- What the Python reader raises: `ValueError` or an error of the engine. -/
inductive ReadError where
  | valueError
  | caracal (error : CaracalError)
deriving DecidableEq

def refuseFile (condition : Prop) [Decidable condition] (message : String) :
    Except ReadError Unit :=
  if condition then .error (.caracal { code := "CDB-7081", message }) else .ok ()

/-- `np.memmap` or `np.frombuffer` of words at an offset of the file. -/
def mappedWords (data : List UInt8) (offset count : Nat) : Except ReadError (List Nat) :=
  if data.length < offset + count * 8 then .error .valueError
  else .ok (words 8 count (data.drop offset))

/-- The ids of edges, if the flags announce them. -/
def mappedEids (data : List UInt8) (offset count flags : Nat) :
    Except ReadError (Option (List Nat)) :=
  if flags &&& CSR_FLAG_HAS_EIDS ≠ 0 then some <$> mappedWords data offset count else .ok none

/-- `read_csr(path)` in Python on the bytes of the file. -/
def pythonReadCsr (path : String) (data : List UInt8) : Except ReadError CsrFile := do
  refuseFile (data.length < HEADER_SIZE + CSR_HEAD_SIZE + CSR_FOOTER_SIZE)
    ("CSR file too small: " ++ path)
  refuseFile (data.take MAGIC.length ≠ MAGIC) ("invalid CSR magic: " ++ path)
  let num_vertices := value (slice data HEADER_SIZE (HEADER_SIZE + 8))
  let num_edges := value (slice data (HEADER_SIZE + 8) (HEADER_SIZE + 16))
  let flags := value (slice data (HEADER_SIZE + 16) (HEADER_SIZE + 20))
  let body_end := data.length - CSR_FOOTER_SIZE
  let body := slice data HEADER_SIZE body_end
  refuseFile (crc32 body ≠ value (data.drop body_end)) ("CSR checksum mismatch: " ++ path)
  let offsets_off := HEADER_SIZE + CSR_HEAD_SIZE
  let neighbors_off := offsets_off + (num_vertices + 1) * 8
  let eids_off := neighbors_off + num_edges * 8
  let offsets ← mappedWords data offsets_off (num_vertices + 1)
  let neighbors ← mappedWords data neighbors_off num_edges
  let eids ← mappedEids data eids_off num_edges flags
  return { num_vertices, num_edges, flags, offsets, neighbors, eids }

theorem refuseFile_pass {condition : Prop} [Decidable condition] (message : String)
    (holds : ¬ condition) : refuseFile condition message = .ok () := if_neg holds

/-! ## What the readers recover -/

/-- The flags announce ids of edges exactly if there are some. -/
def CsrFile.Announced (csr : CsrFile) : Prop :=
  csr.flags &&& CSR_FLAG_HAS_EIDS ≠ 0 ↔ csr.eids.isSome

/-- An array of the engine, of which Python maps the same words. -/
theorem mappedWords_of {path : String} {data : List UInt8} {cursor count stop : Nat}
    {numbers : List Nat} (read : readU64Vec path data cursor count = .ok (numbers, stop)) :
    mappedWords data cursor count = .ok numbers ∧ stop = cursor + count * 8 := by
  obtain ⟨_, _, rest⟩ := except_bind_ok read
  by_cases beyond : 2 ^ 64 ≤ cursor + count * 8
  · rw [if_pos beyond] at rest
    cases rest
  · rw [if_neg beyond] at rest
    obtain ⟨_, within, rest⟩ := except_bind_ok rest
    have inside := rejectIf_ok within
    cases rest
    refine ⟨if_neg ?_, rfl⟩
    have footer : CSR_FOOTER_SIZE = 4 := rfl
    omega

theorem readEids_announced {path : String} {data : List UInt8} {cursor count flags : Nat}
    {eids : Option (List Nat)} (read : readEids path data cursor count flags = .ok eids) :
    flags &&& CSR_FLAG_HAS_EIDS ≠ 0 ↔ eids.isSome := by
  rw [readEids] at read
  by_cases announced : flags &&& CSR_FLAG_HAS_EIDS ≠ 0
  · rw [if_pos announced] at read
    cases array : readU64Vec path data cursor count with
    | error raised =>
      rw [array] at read
      cases read
    | ok numbers =>
      rw [array] at read
      cases read
      exact iff_of_true announced rfl
  · rw [if_neg announced] at read
    cases read
    exact iff_of_false announced Bool.false_ne_true

theorem mappedEids_announced {data : List UInt8} {offset count flags : Nat}
    {eids : Option (List Nat)} (read : mappedEids data offset count flags = .ok eids) :
    flags &&& CSR_FLAG_HAS_EIDS ≠ 0 ↔ eids.isSome := by
  rw [mappedEids] at read
  by_cases announced : flags &&& CSR_FLAG_HAS_EIDS ≠ 0
  · rw [if_pos announced] at read
    cases array : mappedWords data offset count with
    | error raised =>
      rw [array] at read
      cases read
    | ok numbers =>
      rw [array] at read
      cases read
      exact iff_of_true announced rfl
  · rw [if_neg announced] at read
    cases read
    exact iff_of_false announced Bool.false_ne_true

theorem mappedEids_of {path : String} {data : List UInt8} {cursor count flags : Nat}
    {eids : Option (List Nat)} (read : readEids path data cursor count flags = .ok eids) :
    mappedEids data cursor count flags = .ok eids := by
  rw [readEids] at read
  rw [mappedEids]
  by_cases announced : flags &&& CSR_FLAG_HAS_EIDS ≠ 0
  · rw [if_pos announced] at read ⊢
    cases array : readU64Vec path data cursor count with
    | error raised =>
      rw [array] at read
      cases read
    | ok numbers =>
      rw [array] at read
      cases read
      rw [(mappedWords_of array).1]
      rfl
  · rw [if_neg announced] at read ⊢
    exact congrArg Except.ok (Except.ok.inj read)

theorem readCsr_announced {path : String} {data : List UInt8} {csr : CsrFile}
    (read : readCsr path data = .ok csr) : csr.Announced := by
  obtain ⟨_, _, rest⟩ := except_bind_ok read
  obtain ⟨_, _, rest⟩ := except_bind_ok rest
  obtain ⟨_, _, rest⟩ := except_bind_ok rest
  obtain ⟨offsets, _, rest⟩ := except_bind_ok rest
  obtain ⟨neighbors, _, rest⟩ := except_bind_ok rest
  obtain ⟨eids, ids, rest⟩ := except_bind_ok rest
  obtain ⟨_, _, rest⟩ := except_bind_ok rest
  cases rest
  exact readEids_announced ids

theorem pythonReadCsr_announced {path : String} {data : List UInt8} {csr : CsrFile}
    (read : pythonReadCsr path data = .ok csr) : csr.Announced := by
  obtain ⟨_, _, rest⟩ := except_bind_ok read
  obtain ⟨_, _, rest⟩ := except_bind_ok rest
  obtain ⟨_, _, rest⟩ := except_bind_ok rest
  obtain ⟨offsets, _, rest⟩ := except_bind_ok rest
  obtain ⟨neighbors, _, rest⟩ := except_bind_ok rest
  obtain ⟨eids, ids, rest⟩ := except_bind_ok rest
  cases rest
  exact mappedEids_announced ids

/-- What the engine accepts is read in Python as the same adjacency. -/
theorem pythonReadCsr_of {path : String} {data : List UInt8} {csr : CsrFile}
    (read : readCsr path data = .ok csr) : pythonReadCsr path data = .ok csr := by
  obtain ⟨range, valid⟩ := readCsr_ok read
  have shaped := validate_ok range valid
  obtain ⟨_, large, rest⟩ := except_bind_ok read
  obtain ⟨_, magic, rest⟩ := except_bind_ok rest
  obtain ⟨_, checksum, rest⟩ := except_bind_ok rest
  obtain ⟨⟨offsets, afterOffsets⟩, readOffsets, rest⟩ := except_bind_ok rest
  obtain ⟨⟨neighbors, afterNeighbors⟩, readNeighbors, rest⟩ := except_bind_ok rest
  obtain ⟨eids, readIds, rest⟩ := except_bind_ok rest
  obtain ⟨_, _, rest⟩ := except_bind_ok rest
  cases rest
  -- the number of offsets did not wrap, for as many were read
  have count : (value (slice data HEADER_SIZE (HEADER_SIZE + 8)) + 1) % 2 ^ 64 =
      value (slice data HEADER_SIZE (HEADER_SIZE + 8)) + 1 := by
    obtain ⟨_, passed, _⟩ := except_bind_ok valid
    have length := not_not.mp (rejectIf_ok passed)
    exact length.symm.trans shaped.offsets
  rw [count] at readOffsets
  obtain ⟨mappedOffsets, rfl⟩ := mappedWords_of readOffsets
  obtain ⟨mappedNeighbors, rfl⟩ := mappedWords_of readNeighbors
  rw [pythonReadCsr, refuseFile_pass _ (rejectIf_ok large), ok_bind,
    refuseFile_pass _ (rejectIf_ok magic), ok_bind]
  simp only
  rw [refuseFile_pass _ (rejectIf_ok checksum), ok_bind, mappedOffsets, ok_bind,
    mappedNeighbors, ok_bind, mappedEids_of readIds, ok_bind]
  rfl

/-! ## What was built -/

/-- An adjacency of the Rust types, with a file that an address space holds. -/
structure CsrFile.Typed (csr : CsrFile) : Prop where
  num_vertices : csr.num_vertices < 2 ^ 64
  num_edges : csr.num_edges < 2 ^ 64
  flags : csr.flags < 2 ^ 32
  offsets : ∀ offset ∈ csr.offsets, offset < 2 ^ 64
  neighbors : ∀ neighbor ∈ csr.neighbors, neighbor < 2 ^ 64
  eids : ∀ eids ∈ csr.eids, ∀ eid ∈ eids, eid < 2 ^ 64
  room : (csrBytes csr).length < 2 ^ 64

theorem CsrFile.Typed.fits {csr : CsrFile} (typed : csr.Typed) (announced : csr.Announced) :
    csr.Fits :=
  ⟨typed.num_vertices, typed.num_edges, typed.flags, announced, typed.offsets, typed.neighbors,
    typed.eids, typed.room⟩

theorem CsrFile.Typed.offsets_length {csr : CsrFile} (typed : csr.Typed) :
    csr.offsets.length < 2 ^ 64 := by
  have room := typed.room
  simp only [csrBytes, List.length_append, wordBytes_length] at room
  omega

/-- The edge at an index of the arrays of an edge list. -/
def arcAt (src dst : List Nat) (eids : Option (List Nat)) (index : Nat) : Arc :=
  { src := src.getD index 0, dst := dst.getD index 0, eid := (eids.getD []).getD index 0 }

/-- Arrays that are built from are those of an edge list inside the vertices. -/
theorem buildCsrArrays_arcs {src dst : List Nat} {num_vertices : Nat} {eids : Option (List Nat)}
    {csr : CsrFile} (built : buildCsrArrays src dst num_vertices eids = .ok csr) :
    ∃ (arcs : List Arc) (with_eids : Bool), src = arcs.map Arc.src ∧ dst = arcs.map Arc.dst ∧
      eids = eidsOf with_eids arcs ∧
      ∀ arc ∈ arcs, arc.src < num_vertices ∧ arc.dst < num_vertices := by
  obtain ⟨_, ends, rest⟩ := except_bind_ok built
  obtain ⟨_, ids, rest⟩ := except_bind_ok rest
  obtain ⟨rows, made, _⟩ := except_bind_ok rest
  have sameLength := not_not.mp (refuse_ok ends)
  have sameIds := refuse_ok ids
  refine ⟨(List.range src.length).map (arcAt src dst eids), eids.isSome, ?_, ?_, ?_, ?_⟩
  · rw [List.map_map]
    exact (map_getD src 0).symm
  · rw [List.map_map, sameLength]
    exact (map_getD dst 0).symm
  · cases eids with
    | none => rfl
    | some values =>
      have length : values.length = src.length := by
        by_contra apart
        exact sameIds (decide_eq_true apart)
      rw [eidsOf, if_pos Option.isSome_some, List.map_map, ← length]
      exact congrArg some (map_getD values 0).symm
  · intro arc member
    obtain ⟨index, inside, rfl⟩ := List.mem_map.mp member
    obtain ⟨row, done⟩ := ok_of_mapM_ok made index inside
    obtain ⟨_, passed, _⟩ := except_bind_ok done
    have within := refuse_ok passed
    exact ⟨Nat.not_le.mp fun outside => within (Or.inl outside),
      Nat.not_le.mp fun outside => within (Or.inr outside)⟩

/-- What was built passes the checks, and its flags announce its ids. -/
theorem built_valid {src dst : List Nat} {num_vertices : Nat} {eids : Option (List Nat)}
    {csr : CsrFile} (typed : csr.Typed)
    (built : buildCsrArrays src dst num_vertices eids = .ok csr) :
    validateCsr csr = .ok () ∧ csr.Announced ∧
      csr.num_vertices = csr.offsets.length - 1 ∧
      csr.flags = if csr.eids.isSome then CSR_FLAG_HAS_EIDS else 0 := by
  obtain ⟨arcs, with_eids, rfl, rfl, rfl, inside⟩ := buildCsrArrays_arcs built
  rw [buildCsrArrays_of with_eids inside] at built
  cases built
  obtain ⟨length, _, _, last⟩ :=
    offsets_build with_eids arcs fun arc member => (inside arc member).1
  have bound := typed.offsets_length
  have size : (CsrFile.build with_eids arcs num_vertices).neighbors.length = arcs.length :=
    CsrFile.num_edges_build with_eids arcs num_vertices
  have ids : ((CsrFile.build with_eids arcs num_vertices).eids.any fun eids =>
      decide (eids.length ≠ (CsrFile.build with_eids arcs num_vertices).neighbors.length)) = false := by
    rw [size]
    cases with_eids with
    | false => rfl
    | true => simp [CsrFile.build, (ranked_perm Arc.src arcs).length_eq]
  refine ⟨?_, ?_, ?_, ?_⟩
  · simp only at bound
    rw [validateCsr, rejectIf_pass _ _ (not_not.mpr _), ok_bind,
      rejectIf_pass _ _ (not_not.mpr size), ok_bind, rejectIf_pass _ _ (not_not.mpr last), ok_bind,
      rejectIf_pass]
    · simp only [ids, Bool.false_eq_true, not_false_eq_true]
    · simp only [length]
      rw [Nat.mod_eq_of_lt (by omega)]
  · cases with_eids
    · have none : ¬ 0 &&& CSR_FLAG_HAS_EIDS ≠ 0 := by decide
      exact iff_of_false none Bool.false_ne_true
    · have flagged : CSR_FLAG_HAS_EIDS &&& CSR_FLAG_HAS_EIDS ≠ 0 := by decide
      exact iff_of_true flagged rfl
  · simp only [length, Nat.add_sub_cancel]
  · cases with_eids <;> rfl

/-- The Python writer gives the arrays the same bytes. -/
theorem pythonWriteCsr_of {csr : CsrFile} (typed : csr.Typed) (valid : validateCsr csr = .ok ())
    (vertices : csr.num_vertices = csr.offsets.length - 1)
    (flags : csr.flags = if csr.eids.isSome then CSR_FLAG_HAS_EIDS else 0) :
    pythonWriteCsr csr.offsets csr.neighbors csr.eids = .ok (csrBytes csr) := by
  have shaped := validate_ok typed.num_vertices valid
  have ids : ¬ (csr.eids.any fun values => decide (values.length ≠ csr.neighbors.length)) = true := by
    rw [Option.any_eq_true]
    rintro ⟨eids, held, apart⟩
    exact of_decide_eq_true apart (shaped.eids eids held)
  have some_offset : csr.offsets ≠ [] := by
    intro none
    have length := shaped.offsets
    rw [none] at length
    exact Nat.succ_ne_zero _ length.symm
  have last : csr.offsets.getLastD 0 = csr.neighbors.length := by
    rw [List.getLastD_eq_getLast?, shaped.last, shaped.neighbors]
    rfl
  have same : csrBytes { num_vertices := csr.offsets.length - 1
                         num_edges := csr.neighbors.length
                         flags := if csr.eids.isSome then CSR_FLAG_HAS_EIDS else 0
                         offsets := csr.offsets, neighbors := csr.neighbors, eids := csr.eids } =
      csrBytes csr := by
    rw [← vertices, ← flags, shaped.neighbors]
  rw [pythonWriteCsr, refuse, if_neg ids, ok_bind, refuse, if_neg some_offset, ok_bind, refuse,
    if_neg (not_not.mpr last), ok_bind, same]
  rfl

/-- An adjacency that was built is written in the same bytes by both languages and read back by
both; one that the Rust writer accepts is read back by a language exactly if its flags and its
ids agree. -/
theorem files_read_back (path : String) (csr : CsrFile) (typed : csr.Typed) :
    (∀ src dst num_vertices eids, buildCsrArrays src dst num_vertices eids = .ok csr →
      writeCsr csr = .ok (csrBytes csr) ∧
        pythonWriteCsr csr.offsets csr.neighbors csr.eids = .ok (csrBytes csr) ∧
        readCsr path (csrBytes csr) = .ok csr ∧ pythonReadCsr path (csrBytes csr) = .ok csr) ∧
    ∀ data, writeCsr csr = .ok data →
      (readCsr path data = .ok csr ↔ csr.Announced) ∧
        (pythonReadCsr path data = .ok csr ↔ csr.Announced) := by
  constructor
  · intro src dst num_vertices eids built
    obtain ⟨valid, announced, vertices, flags⟩ := built_valid typed built
    have read := readCsr_csrBytes path (typed.fits announced) valid
    refine ⟨?_, pythonWriteCsr_of typed valid vertices flags, read, pythonReadCsr_of read⟩
    rw [writeCsr, valid]
    rfl
  · intro data written
    obtain ⟨_, valid, rest⟩ := except_bind_ok written
    cases rest
    have back (announced : csr.Announced) : readCsr path (csrBytes csr) = .ok csr :=
      readCsr_csrBytes path (typed.fits announced) valid
    exact ⟨⟨readCsr_announced, back⟩,
      ⟨pythonReadCsr_announced, fun announced => pythonReadCsr_of (back announced)⟩⟩

/-- An adjacency with an id that its flags do not announce. -/
def unannouncedEdge : CsrFile :=
  { num_vertices := 1, num_edges := 1, flags := 0, offsets := [0, 1], neighbors := [0]
    eids := some [7] }

theorem typed_edge (flags : Nat) (range : flags < 2 ^ 32) :
    CsrFile.Typed { unannouncedEdge with flags } where
  num_vertices := by show 1 < 2 ^ 64; decide
  num_edges := by show 1 < 2 ^ 64; decide
  flags := range
  offsets := by show ∀ offset ∈ [0, 1], offset < 2 ^ 64; decide
  neighbors := by show ∀ neighbor ∈ [0], neighbor < 2 ^ 64; decide
  eids := by show ∀ eids ∈ some [7], ∀ eid ∈ eids, eid < 2 ^ 64; decide
  room := by
    simp only [csrBytes, unannouncedEdge, List.length_append, word_length, wordBytes_length,
      pack_header_length]
    decide

/-- With the flag for ids the edge is read back. -/
theorem announced_edge_read_back :
    ∃ data, writeCsr { unannouncedEdge with flags := 1 } = .ok data ∧
      readCsr "knows.csr" data = .ok { unannouncedEdge with flags := 1 } :=
  ⟨_, rfl, ((files_read_back "knows.csr" { unannouncedEdge with flags := 1 }
    (typed_edge 1 (by decide))).2 _ rfl).1.mpr (iff_of_true (by decide) rfl)⟩

/-- Without it the writer accepts the edge, and the file is not read back as it was written. -/
theorem unannounced_edge_lost :
    unannouncedEdge.Typed ∧
      ∃ data, writeCsr unannouncedEdge = .ok data ∧ readCsr "knows.csr" data ≠ .ok unannouncedEdge :=
  ⟨typed_edge 0 (by decide), _, rfl, fun read => absurd ((readCsr_announced read).mpr rfl) (by decide)⟩

end CaracalDB.Graph
