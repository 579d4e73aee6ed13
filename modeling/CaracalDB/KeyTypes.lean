import Mathlib.Data.String.Basic

/-!
# Types of keys

What sets, dictionaries and sorts need of the types that their keys have here: an
equality that is decided lawfully, and the order of texts. They are found once, so that
every module means the same by them.
-/

namespace CaracalDB

instance lawful_numbers : LawfulBEq (Nat × Nat) := inferInstance

instance lawful_entries : LawfulBEq (Int × String) := inferInstance

instance lawful_chars : LawfulBEq (List Char) := inferInstance

instance trans_texts : IsTrans String (· ≤ ·) := inferInstance

instance antisymm_texts : @Std.Antisymm String (· ≤ ·) := inferInstance

end CaracalDB
