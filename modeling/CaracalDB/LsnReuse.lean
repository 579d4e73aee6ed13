import CaracalDB.RustSession
import CaracalDB.WalSession

/-!
# LSNs across handles

Both logs number their records like a recovered counter, so no LSN is answered
twice in a history that never reopens an emptied log. Python empties a log when
every segment is covered and none is open; Rust does so at every checkpoint.
-/

namespace CaracalDB

end CaracalDB
