import Mathlib.Logic.Function.Basic
import PeerRoster.Listing.Query

/-! The order of a listing by the numbers and bytes it rests on: the number of the sort key first, a
missing one lowest, then the bytes of the name. Only a destination of the same name is level. -/
namespace PeerRoster

namespace Utf8

theorem toByteArray_bytes (s : String) : (bytes s).toByteArray = s.toByteArray :=
  String.utf8Encode_toList

theorem bytes_injective : Function.Injective bytes := by
  intro s t h
  apply String.toByteArray_inj.mp
  rw [← toByteArray_bytes s, ← toByteArray_bytes t, h]

end Utf8

theorem compare_bytes_lt (a b : List UInt8) : compare a b = .lt ↔ a < b := by
  induction a generalizing b with
  | nil => cases b <;> simp
  | cons x a ih =>
    cases b with
    | nil => simp
    | cons y b =>
      rw [List.compare_cons_cons, Ordering.then_eq_lt, ih, List.cons_lt_cons_iff,
        Std.compare_eq_lt, Std.compare_eq_iff_eq]

theorem collate_lt (s t : String) : collate s t = .lt ↔ Utf8.bytes s < Utf8.bytes t :=
  compare_bytes_lt _ _

theorem collate_eq (s t : String) : collate s t = .eq ↔ s = t := by
  rw [collate, Std.compare_eq_iff_eq, Utf8.bytes_injective.eq_iff]

instance : Std.TransCmp collate := inferInstanceAs (Std.TransCmp (compareOn Utf8.bytes))

namespace SortKey

/-- The number that a key reads off a destination; for a listing by name there is none. -/
def number : SortKey → Destination → Option Int64
  | .name, _ => none
  | .lastTs, d => some d.retry.lastTs
  | .interval, d => some d.retry.interval
  | .failureTs, d => d.retry.failureTs
  | .streamOrdering, d => d.streamOrdering

theorem compare_number_lt (m n : Option Int64) : Ord.compare m n = .lt ↔ m < n := by
  cases m with
  | none =>
    cases n with
    | none => simp [Ord.compare]
    | some n => exact iff_of_true rfl (Option.none_lt_some ..)
  | some m =>
    cases n with
    | none => simp [Ord.compare]
    | some n =>
      have hs : Ord.compare (some m) (some n) = Ord.compare m n := rfl
      rw [hs, Option.some_lt_some, Std.compare_eq_lt]

theorem compare_eq_compare_number (k : SortKey) (a b : Destination) :
    k.compare a b = Ord.compare (k.number a) (k.number b) := by
  cases k <;> rfl

theorem compare_lt (k : SortKey) (a b : Destination) :
    k.compare a b = .lt ↔ k.number a < k.number b := by
  rw [compare_eq_compare_number, compare_number_lt]

theorem compare_eq (k : SortKey) (a b : Destination) :
    k.compare a b = .eq ↔ k.number a = k.number b := by
  rw [compare_eq_compare_number, Std.compare_eq_iff_eq]

end SortKey

namespace Destination

/-- Whether `a` stands strictly before `b`: its number is lower, or the numbers are equal and its
name is lower. Backward turns both comparisons round. -/
def Before (k : SortKey) : Direction → Destination → Destination → Prop
  | .forward, a, b => k.number a < k.number b ∨
      k.number a = k.number b ∧ Utf8.bytes a.name < Utf8.bytes b.name
  | .backward, a, b => k.number b < k.number a ∨
      k.number b = k.number a ∧ Utf8.bytes b.name < Utf8.bytes a.name

instance (m n : Option Int64) : Decidable (m < n) :=
  inferInstanceAs (Decidable (Option.lt (· < ·) m n))

instance (k : SortKey) : (d : Direction) → (a b : Destination) → Decidable (Before k d a b)
  | .forward, _, _ => inferInstanceAs (Decidable (_ ∨ _))
  | .backward, _, _ => inferInstanceAs (Decidable (_ ∨ _))

instance (k : SortKey) : Std.TransCmp k.compare := by
  have hk : k.compare = compareOn k.number := by
    funext a b
    exact k.compare_eq_compare_number a b
  rw [hk]
  infer_instance

instance rank_forward_trans (k : SortKey) : Std.TransCmp (rank k .forward) :=
  inferInstanceAs (Std.TransCmp (compareLex k.compare
    (compareOn fun d : Destination => Utf8.bytes d.name)))

theorem rank_backward (k : SortKey) (a b : Destination) :
    rank k .backward a b = rank k .forward b a := by
  have hs : rank k .forward b a = (rank k .forward a b).swap := Std.OrientedCmp.eq_swap
  exact hs.symm

instance (k : SortKey) (d : Direction) : Std.TransCmp (rank k d) := by
  cases d with
  | forward => infer_instance
  | backward =>
    have hr : rank k .backward = fun a b => rank k .forward b a := by
      funext a b
      exact rank_backward k a b
    rw [hr]
    exact Std.TransCmp.opposite

/-- The comparison by which rows are sorted says which of two stands before the other. -/
theorem rank_lt (k : SortKey) (d : Direction) (a b : Destination) :
    rank k d a b = .lt ↔ Before k d a b := by
  have hf : ∀ a b, rank k .forward a b = .lt ↔ Before k .forward a b := fun a b => by
    simp only [rank, Direction.turn, Ordering.then_eq_lt, SortKey.compare_lt, SortKey.compare_eq,
      collate_lt, Before]
  cases d with
  | forward => exact hf a b
  | backward => rw [rank_backward, hf b a]; rfl

theorem rank_eq (k : SortKey) (d : Direction) (a b : Destination) :
    rank k d a b = .eq ↔ k.number a = k.number b ∧ a.name = b.name := by
  have hf : (k.compare a b).then (collate a.name b.name) = .eq ↔
      k.number a = k.number b ∧ a.name = b.name := by
    rw [Ordering.then_eq_eq, SortKey.compare_eq, collate_eq]
  cases d with
  | forward => exact hf
  | backward => rw [rank, Direction.turn, Ordering.swap_eq_eq, hf]

theorem rank_total (k : SortKey) (d : Direction) (a b : Destination) :
    (rank k d a b).isLE ∨ (rank k d b a).isLE := by
  have hs : rank k d b a = (rank k d a b).swap := Std.OrientedCmp.eq_swap
  rw [hs]
  cases rank k d a b <;> simp

theorem before_irrefl (k : SortKey) (d : Direction) (a : Destination) : ¬ Before k d a a := by
  have hs : rank k d a a = .eq := Std.ReflCmp.compare_self
  rw [← rank_lt, hs]
  simp

theorem before_asymm {k : SortKey} {d : Direction} {a b : Destination} (h : Before k d a b) :
    ¬ Before k d b a := by
  have hs : rank k d b a = (rank k d a b).swap := Std.OrientedCmp.eq_swap
  rw [← rank_lt] at h ⊢
  rw [hs, h]
  simp

theorem before_of_rank_isLE {k : SortKey} {d : Direction} {a b : Destination}
    (h : (rank k d a b).isLE) (hn : a.name ≠ b.name) : Before k d a b := by
  rw [← rank_lt]
  rcases Ordering.isLE_iff_eq_lt_or_eq_eq.mp h with hl | he
  · exact hl
  · exact absurd ((rank_eq k d a b).mp he).2 hn

end Destination
end PeerRoster
