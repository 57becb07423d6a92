import PeerRoster.Proofs.Listing

/-! In what order writers act. Writes to different rows may be done in either order, and so may the
two kinds of writes to one row, unless timings with a negative interval create it: they do not take
the place of the timings that a stream position creates it with. The rows are then stored in another
order, which no reader can see. -/
namespace PeerRoster

/-- A reader cannot tell one storage from the other. -/
structure Storage.Alike (s s' : Storage) : Prop where
  get : ∀ name, s.get name = s'.get name
  list : ∀ q, s.list q = s'.list q

theorem Query.select_of_perm (q : Query) {t u : Table} (ht : t.Distinct) (hu : u.Distinct)
    (h : t.Perm u) : q.select t = q.select u := by
  have hmatching : (q.matching t).Perm (q.matching u) := h.filter _
  have hlisting : q.listing t = q.listing u := by
    apply q.listing_eq ht _ (q.listing_pairwise hu)
    rw [← q.matching_eq]
    exact hmatching.trans (q.listing_perm u).symm
  unfold listing at hlisting
  simp only [select, hlisting, hmatching.length_eq]

theorem Table.alike {t u : Table} (ht : t.Distinct) (hu : u.Distinct)
    (h : ∀ n, t.get? n = u.get? n) : (Storage.present t).Alike (.present u) where
  get name := congrArg Except.ok (h name)
  list q := congrArg Except.ok (q.select_of_perm ht hu (perm_of_get? ht hu h))

namespace Operation

/-- Performs an operation, which answers for timings whether they were stored. -/
def perform (name : String) (s : Storage) : Operation → Except StoreError (Option Bool) × Storage
  | .setRetry r => ((s.setRetry name r).1.map some, (s.setRetry name r).2)
  | .setStream ordering => ((s.setStream name ordering).1.map fun _ => none,
      (s.setStream name ordering).2)

/-- The answer, by the row that is found under the name. -/
def flag (found : Option Destination) : Operation → Option Bool
  | .setRetry r => some (Table.accepts r found)
  | .setStream _ => none

theorem perform_present (name : String) (t : Table) (a : Operation) :
    a.perform name (.present t) = (.ok (a.flag (t.get? name)), .present (a.onTable name t)) := by
  cases a with
  | setRetry r =>
    rw [flag, ← Table.setRetry_fst]
    rfl
  | setStream ordering => rfl

end Operation

/-- Two operations answer the same whichever goes first, and what they leave cannot be told apart.
-/
structure Storage.Commute (s : Storage) (m : String) (a : Operation) (n : String) (b : Operation) :
    Prop where
  first : (a.perform m (b.perform n s).2).1 = (a.perform m s).1
  second : (b.perform n (a.perform m s).2).1 = (b.perform n s).1
  alike : (b.perform n (a.perform m s).2).2.Alike (a.perform m (b.perform n s).2).2

namespace Table

variable {t : Table}

/-- Operations commute exactly if neither changes the answer of the other and each row is the same
after both. -/
theorem commute_iff (ht : t.Distinct) (m n : String) (a b : Operation) :
    (Storage.present t).Commute m a n b ↔
      a.flag ((b.onTable n t).get? m) = a.flag (t.get? m) ∧
      b.flag ((a.onTable m t).get? n) = b.flag (t.get? n) ∧
      ∀ k, (b.onTable n (a.onTable m t)).get? k = (a.onTable m (b.onTable n t)).get? k := by
  constructor
  · rintro ⟨hfirst, hsecond, halike⟩
    simp only [Operation.perform_present] at hfirst hsecond halike
    exact ⟨Except.ok.inj hfirst, Except.ok.inj hsecond, fun k => Except.ok.inj (halike.get k)⟩
  · rintro ⟨hfirst, hsecond, hrow⟩
    refine ⟨?_, ?_, ?_⟩ <;> simp only [Operation.perform_present]
    · rw [hfirst]
    · rw [hsecond]
    · exact alike (b.distinct_onTable n (a.distinct_onTable m ht))
        (a.distinct_onTable m (b.distinct_onTable n ht)) hrow

theorem commute_of_ne (ht : t.Distinct) {m n : String} (h : m ≠ n) (a b : Operation) :
    (Storage.present t).Commute m a n b := by
  rw [commute_iff ht]
  simp only [Operation.get?_onTable, if_neg h, if_neg h.symm, true_and]
  intro k
  by_cases hm : k = m
  · subst hm
    simp [h]
  · simp [hm]

theorem supersedes_zero (new : Int64) : supersedes new 0 = true ↔ ¬ new < 0 := by
  have hzero : (0 : Int64).toInt = 0 := rfl
  simp only [supersedes, Bool.or_eq_true, beq_iff_eq, decide_eq_true_eq, Int64.lt_iff_toInt_lt,
    ← Int64.toInt_inj, hzero]
  omega

/-- Where there is no row, timings are the ones of the row that a stream position creates exactly if
their interval is not negative. -/
theorem commute_of_no_row (ht : t.Distinct) {n : String} (h : t.get? n = none) (r : RetryTimings)
    (ordering : Int64) :
    (Storage.present t).Commute n (.setRetry r) n (.setStream ordering) ↔ ¬ r.interval < 0 := by
  rw [commute_iff ht, ← supersedes_zero]
  have hflag : Operation.flag ((Operation.onTable n t (.setStream ordering)).get? n) (.setRetry r) =
      some (supersedes r.interval 0) := by
    rw [Operation.get?_onTable, if_pos rfl, h]
    rfl
  rw [hflag, h]
  constructor
  · rintro ⟨hfirst, -, -⟩
    exact Option.some.inj hfirst
  · intro hs
    have hunknown : RetryTimings.unknown.interval = 0 := rfl
    refine ⟨congrArg some hs, rfl, fun k => ?_⟩
    by_cases hk : k = n
    · simp [Operation.get?_onTable, Operation.row, hk, h, retried, streamed, hunknown, hs]
    · simp [Operation.get?_onTable, hk]

theorem commute_of_row (ht : t.Distinct) {n : String} {d : Destination} (h : t.get? n = some d)
    (r : RetryTimings) (ordering : Int64) :
    (Storage.present t).Commute n (.setRetry r) n (.setStream ordering) := by
  rw [commute_iff ht]
  refine ⟨?_, rfl, fun k => ?_⟩
  · rw [Operation.get?_onTable, if_pos rfl, h]
    rfl
  · by_cases hk : k = n
    · by_cases hs : supersedes r.interval d.retry.interval <;>
        simp [Operation.get?_onTable, Operation.row, hk, h, retried, streamed, hs]
    · simp [Operation.get?_onTable, hk]

end Table

/-- Writers commute. Whatever two of them do to rows of different names, and whether or not the rows
are there, both answer the same in either order and no reader can tell which went first. So do
timings and a stream position of one name, except exactly when no row has the name and the interval
is negative. -/
theorem Storage.writers_commute (t : Table) (ht : t.Distinct) :
    (∀ (m n : String) (a b : Operation), m ≠ n → (Storage.present t).Commute m a n b) ∧
    ∀ (n : String) (r : RetryTimings) (ordering : Int64),
      (Storage.present t).Commute n (.setRetry r) n (.setStream ordering) ↔
        ¬ (t.get? n = none ∧ r.interval < 0) := by
  refine ⟨fun m n a b h => Table.commute_of_ne ht h a b, fun n r ordering => ?_⟩
  cases h : t.get? n with
  | none =>
    rw [Table.commute_of_no_row ht h]
    simp
  | some d => simp [Table.commute_of_row ht h r ordering]

/-- Two new rows, stored in either order; an offer that is too short for a row that is there; and
one with a negative interval for a name without a row, which is stored only if it comes first. -/
theorem Storage.writers_commute_negative :
    let t : Table := [⟨"b.org", ⟨none, 5, -8⟩, some 3⟩]
    t.Distinct ∧
    (Storage.present t).Commute "c.org" (.setRetry ⟨some 1, 2, -9⟩) "a.org" (.setStream 4) ∧
    (Storage.present t).Commute "b.org" (.setRetry ⟨some 1, 2, -9⟩) "b.org" (.setStream 4) ∧
    ¬ (Storage.present t).Commute "a.org" (.setRetry ⟨some 1, 2, -9⟩) "a.org" (.setStream 4) := by
  intro t
  have ht : t.Distinct := by decide
  obtain ⟨hne, hsame⟩ := writers_commute t ht
  refine ⟨ht, hne _ _ _ _ (by decide), (hsame _ _ _).mpr ?_, ?_⟩
  · rintro ⟨hrow, -⟩
    cases hrow
  · rw [hsame]
    exact not_not_intro ⟨rfl, by decide⟩

end PeerRoster
