import Cardsmith.Proofs.Card.Revision

/-!
# Runs of any length

A run goes on where a shorter run stopped, and nothing happens after a run that came to its end.
Nothing forces a revision to end, so what it does is what its runs of all lengths do.
-/

namespace Cardsmith
namespace Card
namespace Revision

variable {σ : Type}

/-! ## Runs one after the other -/

theorem run_of_turn_eq_none {visitor : Visitor σ} {r : Revision σ} (h : turn visitor r = none)
    (limit : Nat) : run visitor limit r = ([], r) := by
  cases limit with
  | zero => rfl
  | succ limit => rw [run, h]

theorem run_of_nil {visitor : Visitor σ} {r : Revision σ} (h : r.queue = []) (limit : Nat) :
    run visitor limit r = ([], r) := by
  obtain ⟨card, queue, memory⟩ := r
  cases h
  exact run_of_turn_eq_none (turn_nil visitor card memory) limit

theorem run_add (visitor : Visitor σ) (first second : Nat) (r : Revision σ) :
    run visitor (first + second) r =
      ((run visitor first r).1 ++ (run visitor second (run visitor first r).2).1,
        (run visitor second (run visitor first r).2).2) := by
  induction first generalizing r with
  | zero =>
      rw [Nat.zero_add]
      rfl
  | succ first ih =>
      rw [Nat.succ_add, run, run]
      cases hturn : turn visitor r with
      | none => simp [run_of_turn_eq_none hturn]
      | some result =>
          obtain ⟨turn?, next⟩ := result
          simp [ih]

theorem run_succ_of_turn {visitor : Visitor σ} {r next : Revision σ} {turn? : Option Turn}
    (h : turn visitor r = some (turn?, next)) (limit : Nat) :
    run visitor (limit + 1) r =
      (turn?.toList ++ (run visitor limit next).1, (run visitor limit next).2) := by
  rw [run, h]

theorem length_run_le (visitor : Visitor σ) (limit : Nat) (r : Revision σ) :
    (run visitor limit r).1.length ≤ limit := by
  induction limit generalizing r with
  | zero => exact Nat.le_refl 0
  | succ limit ih =>
      cases hturn : turn visitor r with
      | none =>
          rw [run_of_turn_eq_none hturn]
          exact Nat.zero_le _
      | some result =>
          obtain ⟨turn?, next⟩ := result
          have hrest := ih next
          have hfirst := Option.length_toList_le (o := turn?)
          rw [run_succ_of_turn hturn, List.length_append]
          omega

/-! ## Turns taken, sooner or later -/

/-- A turn is taken by a revision that goes on long enough. -/
def Takes (visitor : Visitor σ) (r : Revision σ) (t : Turn) : Prop :=
  ∃ count, t ∈ (run visitor count r).1

/-- Nothing waits after some number of turns. -/
def Ends (visitor : Visitor σ) (r : Revision σ) : Prop :=
  ∃ count, (run visitor count r).2.queue = []

theorem Takes.of_later {visitor : Visitor σ} {r : Revision σ} {limit : Nat} {t : Turn}
    (h : Takes visitor (run visitor limit r).2 t) : Takes visitor r t := by
  rcases h with ⟨count, ht⟩
  refine ⟨limit + count, ?_⟩
  rw [run_add]
  exact List.mem_append_right _ ht

theorem takes_of_turn {visitor : Visitor σ} {r next : Revision σ} {t : Turn}
    (h : turn visitor r = some (some t, next)) : Takes visitor r t := by
  refine ⟨1, ?_⟩
  rw [run_succ_of_turn h]
  exact List.mem_cons_self

theorem Takes.after_turn {visitor : Visitor σ} {r next : Revision σ} {turn? : Option Turn}
    (h : turn visitor r = some (turn?, next)) {t : Turn} (ht : Takes visitor next t) :
    Takes visitor r t := by
  rcases ht with ⟨count, ht⟩
  refine ⟨count + 1, ?_⟩
  rw [run_succ_of_turn h]
  exact List.mem_append_right _ ht

theorem Ends.of_later {visitor : Visitor σ} {r : Revision σ} {limit : Nat}
    (h : Ends visitor (run visitor limit r).2) : Ends visitor r := by
  rcases h with ⟨count, hend⟩
  refine ⟨limit + count, ?_⟩
  rw [run_add]
  exact hend

theorem run_prefix_of_end {visitor : Visitor σ} {r : Revision σ} {limit : Nat}
    (h : (run visitor limit r).2.queue = []) (count : Nat) :
    (run visitor count r).1 <+: (run visitor limit r).1 := by
  rcases Nat.le_total count limit with hle | hle
  · obtain ⟨extra, rfl⟩ := Nat.exists_eq_add_of_le hle
    rw [run_add]
    exact List.prefix_append _ _
  · obtain ⟨extra, rfl⟩ := Nat.exists_eq_add_of_le hle
    have hsame : (run visitor (limit + extra) r).1 = (run visitor limit r).1 := by
      rw [run_add, run_of_nil h, List.append_nil]
    exact ⟨[], by rw [List.append_nil, hsame]⟩

theorem Takes.mem_of_end {visitor : Visitor σ} {r : Revision σ} {limit : Nat} {t : Turn}
    (ht : Takes visitor r t) (h : (run visitor limit r).2.queue = []) :
    t ∈ (run visitor limit r).1 := by
  rcases ht with ⟨count, ht⟩
  exact (run_prefix_of_end h count).subset ht

end Revision
end Card
end Cardsmith
