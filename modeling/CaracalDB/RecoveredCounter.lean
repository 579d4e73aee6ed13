import Mathlib.Order.Bounds.Basic
import Mathlib.Data.Set.Basic

/-!
# Counters recovered from what survives

A counter hands out increasing numbers and keeps evidence of the numbers it
handed out. Evidence may be forgotten, and a counter that is recovered continues
from the largest number it still finds evidence of. No number is handed out
twice as long as recovering never meets a counter whose evidence is gone
altogether although numbers were handed out: forgetting is required to keep the
evidence of the newest number unless it forgets everything.
-/

namespace CaracalDB

/-- The newest number, the numbers with evidence, and all numbers handed out. -/
@[ext] structure Counter where
  last : Nat
  surviving : Set Nat
  issued : List Nat

namespace Counter

def initial : Counter := { last := 0, surviving := ∅, issued := [] }

/-- Numbers were handed out and nothing remembers any of them. -/
def Emptied (counter : Counter) : Prop := 0 < counter.last ∧ counter.surviving = ∅

/-- One move of a counter. -/
inductive Move : Counter → Counter → Prop where
  | issue (counter : Counter) (surviving : Set Nat) (found : counter.last + 1 ∈ surviving)
      (known : ∀ number ∈ surviving, number = counter.last + 1 ∨ number ∈ counter.surviving) :
      Move counter
        { last := counter.last + 1, surviving, issued := counter.issued ++ [counter.last + 1] }
  | forget (counter : Counter) (surviving : Set Nat) (known : surviving ⊆ counter.surviving)
      (newest : surviving.Nonempty → counter.last ∈ surviving) :
      Move counter { counter with surviving }
  | recover (counter : Counter) (last : Nat) (evidence : ¬ counter.Emptied)
      (largest : IsGreatest counter.surviving last ∨ (counter.surviving = ∅ ∧ last = 0)) :
      Move counter { counter with last }

/-- A counter whose next number is new. -/
structure Sound (counter : Counter) : Prop where
  increasing : counter.issued.Pairwise (· < ·)
  issued_le : ∀ number ∈ counter.issued, number ≤ counter.last
  surviving_le : ∀ number ∈ counter.surviving, number ≤ counter.last
  newest : counter.surviving.Nonempty → counter.last ∈ counter.surviving

theorem initial_sound : initial.Sound := by
  refine ⟨List.Pairwise.nil, ?_, ?_, ?_⟩
  · intro number member
    cases member
  · intro number member
    cases member
  · intro nonempty
    exact absurd nonempty Set.not_nonempty_empty

/-- Recovering a sound counter gives the counter itself. -/
theorem Sound.recovered {counter : Counter} (sound : counter.Sound) (last : Nat)
    (evidence : ¬ counter.Emptied)
    (largest : IsGreatest counter.surviving last ∨ (counter.surviving = ∅ ∧ last = 0)) :
    last = counter.last := by
  rcases largest with greatest | ⟨nothing, zero⟩
  · have newest := sound.newest ⟨last, greatest.1⟩
    exact Nat.le_antisymm (sound.surviving_le last greatest.1) (greatest.2 newest)
  · by_contra different
    exact evidence ⟨by omega, nothing⟩

/-- Every move keeps the next number new. -/
theorem Sound.move {counter after : Counter} (sound : counter.Sound) (move : Move counter after) :
    after.Sound := by
  cases move with
  | issue surviving found known =>
    refine ⟨?_, ?_, ?_, fun _ => found⟩
    · rw [List.pairwise_append]
      refine ⟨sound.increasing, List.pairwise_singleton .., ?_⟩
      intro earlier member newest isNewest
      rw [List.mem_singleton.mp isNewest]
      exact Nat.lt_succ_of_le (sound.issued_le earlier member)
    · intro number member
      rcases List.mem_append.mp member with earlier | newest
      · exact Nat.le_succ_of_le (sound.issued_le number earlier)
      · exact Nat.le_of_eq (List.mem_singleton.mp newest)
    · intro number member
      rcases known number member with newest | earlier
      · exact Nat.le_of_eq newest
      · exact Nat.le_succ_of_le (sound.surviving_le number earlier)
  | forget surviving known newest =>
    exact ⟨sound.increasing, sound.issued_le, fun number member =>
      sound.surviving_le number (known member), newest⟩
  | recover last evidence largest =>
    have same := sound.recovered last evidence largest
    subst same
    exact sound

end Counter

end CaracalDB
