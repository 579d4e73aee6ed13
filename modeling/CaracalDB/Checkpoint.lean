import CaracalDB.Wal

/-!
# Checkpoints of a Python bundle

A checkpoint appends a marker to the log, writes the marker's LSN to the
manifest and prunes segments. The three effects happen in this order, so a
refused append changes nothing and a pruning that stops leaves marker and
manifest behind.
-/

namespace CaracalDB

def MANIFEST_NAME : String := "MANIFEST"

/-- The LSN fields of a bundle's manifest. -/
structure Manifest where
  last_lsn : Nat := 0
  checkpoint_lsn : Nat := 0
deriving DecidableEq

/-- A bundle: its path and the manifest, the same in memory and on disk. -/
structure Bundle where
  path : String
  manifest : Manifest
deriving DecidableEq

namespace Log

def CHECKPOINT_KIND : String := "CHECKPOINT"

structure CheckpointResult where
  checkpoint_lsn : Nat
  wal_segments_removed : Nat
  manifest_path : String

/-- The error of a checkpoint whose log is behind the manifest. -/
def regressionError (last_lsn checkpoint_lsn : Nat) : Raised :=
  .caracal
    { code := "CDB-7060"
      message := "WAL last_lsn=" ++ toString last_lsn ++ " is behind manifest checkpoint_lsn=" ++
        toString checkpoint_lsn ++ "; refusing to regress" }

/-- `checkpoint(bundle, wal)` -/
def checkpoint (bundle : Bundle) (directory : Directory) (wal : Wal) :
    (Bundle × Directory × Wal) × Except Raised CheckpointResult :=
  if wal.last_lsn < bundle.manifest.checkpoint_lsn then
    ((bundle, directory, wal),
      .error (regressionError wal.last_lsn bundle.manifest.checkpoint_lsn))
  else match append directory wal CHECKPOINT_KIND [] with
    | .error raised => ((bundle, directory, wal), .error raised)
    | .ok ((directory, wal), marker_lsn) =>
        let new_manifest : Manifest :=
          { bundle.manifest with last_lsn := marker_lsn, checkpoint_lsn := marker_lsn }
        let bundle := { bundle with manifest := new_manifest }
        let (directory, removed) := truncateBefore directory wal marker_lsn
        ((bundle, directory, wal), removed.map fun wal_segments_removed =>
          { checkpoint_lsn := marker_lsn
            wal_segments_removed
            manifest_path := bundle.path ++ "/" ++ MANIFEST_NAME })

end Log

end CaracalDB
