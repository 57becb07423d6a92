import PeerRoster.Proofs.Listing

/-! What a write touches. A writer changes its own part of the row of one name and nothing else, and
whatever was written, a listing shows a row exactly if it is found under its name. -/
namespace PeerRoster

/-- The two ways to read agree: in every order the whole listing has the rows that are found under
their names. -/
def Storage.Agrees (s : Storage) : Prop :=
  ∀ (k : SortKey) (d : Direction) (row : Destination),
    (∃ found, s.list ⟨none, k, d, none⟩ = .ok found ∧ row ∈ found.rows) ↔
      s.get row.name = .ok (some row)

namespace Table

theorem agrees {t : Table} (ht : t.Distinct) : (Storage.present t).Agrees := by
  intro k d row
  have hlisted : row ∈ (Query.select ⟨none, k, d, none⟩ t).rows ↔ row ∈ t :=
    (Query.mem_listing ⟨none, k, d, none⟩ t row).trans (and_iff_left trivial)
  have hget : (Storage.present t).get row.name = .ok (some row) ↔ row ∈ t := by
    have hsome := get?_eq_some_iff ht row.name row
    rw [and_iff_left rfl] at hsome
    rw [← hsome]
    exact ⟨fun h => Except.ok.inj h, fun h => congrArg Except.ok h⟩
  rw [hget, ← hlisted]
  constructor
  · rintro ⟨found, hfound, hrow⟩
    obtain rfl := Except.ok.inj hfound
    exact hrow
  · intro hrow
    exact ⟨_, rfl, hrow⟩

theorem streamed_eq (name : String) (ordering : Int64) (found : Option Destination) :
    streamed name ordering found = found.elim ⟨name, ⟨none, 0, 0⟩, some ordering⟩
      fun d => { d with streamOrdering := some ordering } := by
  cases found <;> rfl

/-- Timings leave the position of a row as it is, and are taken over as a whole or not at all. -/
theorem retried_cases {t : Table} {name : String} {found : Option Destination}
    (h : t.get? name = found) (r : RetryTimings) :
    (retried name r found).name = name ∧
    (retried name r found).streamOrdering = found.bind (·.streamOrdering) ∧
    (accepts r found = true ∧ (retried name r found).retry = r ∨
      accepts r found = false ∧ found.map (·.retry) = some (retried name r found).retry) := by
  cases found with
  | none => exact ⟨rfl, rfl, .inl ⟨rfl, rfl⟩⟩
  | some d =>
    have hname := name_of_get? h
    by_cases hs : supersedes r.interval d.retry.interval
    · simp [retried, accepts, hs, hname]
    · simp [retried, accepts, hs, hname]

end Table

/-- What writers touch. A stream position changes nothing but the position of the row of its name,
or creates a row of which nothing else is known. Timings leave the position, and either all of them
are stored or, exactly if the answer says so, none. Rows of other names are as before, and before
and after a write the two ways to read agree. -/
theorem Storage.writers_frame (t : Table) (ht : t.Distinct) (n : String) :
    (Storage.present t).Agrees ∧
    (∀ ordering, ∃ s, (Storage.present t).setStream n ordering = (.ok (), s) ∧
      s.get n = .ok (some ((t.get? n).elim ⟨n, ⟨none, 0, 0⟩, some ordering⟩
        fun d => { d with streamOrdering := some ordering })) ∧
      (∀ m, m ≠ n → s.get m = (Storage.present t).get m) ∧ s.Agrees) ∧
    ∀ r, ∃ written s row, (Storage.present t).setRetry n r = (.ok written, s) ∧
      s.get n = .ok (some row) ∧ row.name = n ∧
      row.streamOrdering = (t.get? n).bind (·.streamOrdering) ∧
      (written = true ∧ row.retry = r ∨
        written = false ∧ (t.get? n).map (·.retry) = some row.retry) ∧
      (∀ m, m ≠ n → s.get m = (Storage.present t).get m) ∧ s.Agrees := by
  refine ⟨Table.agrees ht, fun ordering => ?_, fun r => ?_⟩
  · refine ⟨.present (t.setStream n ordering), rfl, ?_, fun m hm => ?_,
      Table.agrees (Operation.distinct_onTable n ht (.setStream ordering))⟩
    · rw [← Table.streamed_eq]
      exact congrArg Except.ok ((t.get?_setStream n ordering n).trans (if_pos rfl))
    · exact congrArg Except.ok ((t.get?_setStream n ordering m).trans (if_neg hm))
  · obtain ⟨hname, hordering, hretry⟩ := Table.retried_cases (rfl : t.get? n = _) r
    refine ⟨Table.accepts r (t.get? n), .present (t.setRetry n r).2, _, ?_, ?_, hname, hordering,
      hretry, fun m hm => ?_, Table.agrees (Operation.distinct_onTable n ht (.setRetry r))⟩
    · rw [← Table.setRetry_fst]
      rfl
    · exact congrArg Except.ok ((t.get?_setRetry n r n).trans (if_pos rfl))
    · exact congrArg Except.ok ((t.get?_setRetry n r m).trans (if_neg hm))

/-- Two rows. A position under a new name creates a row; timings without a time of failure take the
place of stored ones that have one, and a shorter interval is refused as a whole. -/
theorem Storage.writers_frame_two_rows :
    let t : Table := [⟨"b.org", ⟨some 4, 5, 7⟩, some 3⟩, ⟨"a.org", ⟨none, 1, 9⟩, none⟩]
    t.Distinct ∧
    (∃ s, (Storage.present t).setStream "c.org" 8 = (.ok (), s) ∧
      s.get "c.org" = .ok (some ⟨"c.org", ⟨none, 0, 0⟩, some 8⟩) ∧
      s.get "b.org" = .ok (some ⟨"b.org", ⟨some 4, 5, 7⟩, some 3⟩)) ∧
    (∃ s, (Storage.present t).setRetry "b.org" ⟨none, 6, 8⟩ = (.ok true, s) ∧
      s.get "b.org" = .ok (some ⟨"b.org", ⟨none, 6, 8⟩, some 3⟩)) ∧
    ∃ s, (Storage.present t).setRetry "a.org" ⟨some 2, 6, 8⟩ = (.ok false, s) ∧
      s.get "a.org" = .ok (some ⟨"a.org", ⟨none, 1, 9⟩, none⟩) := by
  intro t
  have ht : t.Distinct := by decide
  obtain ⟨-, hstream, -⟩ := writers_frame t ht "c.org"
  obtain ⟨-, -, hlonger⟩ := writers_frame t ht "b.org"
  obtain ⟨-, -, hshorter⟩ := writers_frame t ht "a.org"
  refine ⟨ht, ?_, ?_, ?_⟩
  · obtain ⟨s, hs, hget, hother, -⟩ := hstream 8
    exact ⟨s, hs, hget, hother "b.org" (by decide)⟩
  · obtain ⟨written, s, ⟨name, retry, ordering⟩, hs, hget, rfl, rfl, hretry, -⟩ :=
      hlonger ⟨none, 6, 8⟩
    obtain rfl : true = written := Except.ok.inj (congrArg Prod.fst hs)
    obtain ⟨-, rfl⟩ | ⟨hkept, -⟩ := hretry
    · exact ⟨s, hs, hget⟩
    · contradiction
  · obtain ⟨written, s, ⟨name, retry, ordering⟩, hs, hget, rfl, rfl, hretry, -⟩ :=
      hshorter ⟨some 2, 6, 8⟩
    obtain rfl : false = written := Except.ok.inj (congrArg Prod.fst hs)
    obtain ⟨hstored, -⟩ | ⟨-, hkept⟩ := hretry
    · contradiction
    · obtain rfl := Option.some.inj hkept
      exact ⟨s, hs, hget⟩

end PeerRoster
