import PeerRoster.Proofs.Listing

/-! A listing backward is the listing forward read from its end, rows with the same key and rows
without one included. A window of the one is a window of the other, as far from the opposite end. -/
namespace PeerRoster

theorem take_drop_reverse {α : Type} (l : List α) (s m : ℕ) :
    (l.reverse.drop s).take m =
      ((l.drop (l.length - (s + m))).take (min m (l.length - s))).reverse := by
  have hk : min (l.length - s) l.length - m = l.length - (s + m) := by omega
  have hm : l.length - s - (l.length - (s + m)) = min m (l.length - s) := by omega
  rw [List.drop_reverse, List.take_reverse, List.length_take, hk, List.drop_take, hm]

namespace Window

/-- The window that holds the rows of this one when a listing of `total` rows is turned round. -/
def mirror (w : Window) (total : ℕ) : Window :=
  ⟨Words.saturate (total - (w.start.toNat + w.limit.toNat)),
    Words.saturate (min w.limit.toNat (total - w.start.toNat))⟩

theorem mirror_start (w : Window) {total : ℕ} (h : total ≤ 0x7FFFFFFFFFFFFFFF) :
    (w.mirror total).start.toNat = total - (w.start.toNat + w.limit.toNat) := by
  rw [mirror, Words.toNat_saturate]
  omega

theorem mirror_limit (w : Window) {total : ℕ} (h : total ≤ 0x7FFFFFFFFFFFFFFF) :
    (w.mirror total).limit.toNat = min w.limit.toNat (total - w.start.toNat) := by
  rw [mirror, Words.toNat_saturate]
  omega

end Window

namespace Query

variable (filter : Option String) (k : SortKey)

/-- What comes before forward comes after backward, so the one strict order backward is the one
forward turned round. -/
theorem listing_backward {t : Table} (ht : t.Distinct) (v w : Option Window) :
    listing ⟨filter, k, .backward, v⟩ t = (listing ⟨filter, k, .forward, w⟩ t).reverse := by
  let q : Query := ⟨filter, k, .forward, w⟩
  apply listing_eq _ ht
  · have hp : (q.matching t).Perm (q.listing t).reverse :=
      (q.listing_perm t).symm.trans (List.reverse_perm _).symm
    rwa [q.matching_eq] at hp
  · rw [List.pairwise_reverse]
    exact q.listing_pairwise ht

theorem select_backward {t : Table} (ht : t.Distinct) :
    (select ⟨filter, k, .backward, none⟩ t).rows =
      (select ⟨filter, k, .forward, none⟩ t).rows.reverse :=
  listing_backward filter k ht none none

theorem select_backward_window {t : Table} (ht : t.Distinct)
    (hl : t.length ≤ 0x7FFFFFFFFFFFFFFF) (w : Window) :
    (select ⟨filter, k, .backward, some w⟩ t).rows = (select ⟨filter, k, .forward,
      some (w.mirror (count ⟨filter, k, .forward, none⟩ t))⟩ t).rows.reverse := by
  let q : Query := ⟨filter, k, .forward, none⟩
  have hn : q.count t ≤ 0x7FFFFFFFFFFFFFFF := (q.count_le t).trans hl
  have hb : (select ⟨filter, k, .backward, some w⟩ t).rows =
      (listing ⟨filter, k, .backward, some w⟩ t |>.drop w.start.toNat).take
        (min w.limit.toNat (q.count t - w.start.toNat)) := select_rows _ hl
  have hf : (select ⟨filter, k, .forward, some (w.mirror (q.count t))⟩ t).rows =
      (q.listing t |>.drop (w.mirror (q.count t)).start.toNat).take
        (min (w.mirror (q.count t)).limit.toNat
          (q.count t - (w.mirror (q.count t)).start.toNat)) := select_rows _ hl
  have hstart : q.count t - (w.start.toNat + min w.limit.toNat (q.count t - w.start.toNat)) =
      q.count t - (w.start.toNat + w.limit.toNat) := by omega
  have hlimit : min (min w.limit.toNat (q.count t - w.start.toNat)) (q.count t - w.start.toNat) =
      min (min w.limit.toNat (q.count t - w.start.toNat))
        (q.count t - (q.count t - (w.start.toNat + w.limit.toNat))) := by omega
  rw [hb, hf, listing_backward filter k ht _ none, take_drop_reverse, q.length_listing,
    w.mirror_start hn, w.mirror_limit hn, hstart, hlimit]

end Query

namespace Storage

/-- The law of directions: the listing backward is the listing forward turned round, and so is its
page for any window, if the forward window lies as far from the other end. -/
theorem list_mirror (t : Table) (filter : Option String) (k : SortKey) (ht : t.Distinct)
    (hl : t.length ≤ 0x7FFFFFFFFFFFFFFF) :
    ∃ total : UInt64, total.toNat = t.countP (fun d => Matches filter d.name) ∧
      (∃ rows, (Storage.present t).list ⟨filter, k, .forward, none⟩ = .ok ⟨total, rows⟩ ∧
        (Storage.present t).list ⟨filter, k, .backward, none⟩ = .ok ⟨total, rows.reverse⟩) ∧
      ∀ w : Window, ∃ w' : Window,
        w'.start.toNat = total.toNat - (w.start.toNat + w.limit.toNat) ∧
        w'.limit.toNat = min w.limit.toNat (total.toNat - w.start.toNat) ∧
        ∃ rows, (Storage.present t).list ⟨filter, k, .forward, some w'⟩ = .ok ⟨total, rows⟩ ∧
          (Storage.present t).list ⟨filter, k, .backward, some w⟩ = .ok ⟨total, rows.reverse⟩ := by
  let q : Query := ⟨filter, k, .forward, none⟩
  have hn : q.count t ≤ 0x7FFFFFFFFFFFFFFF := (q.count_le t).trans hl
  have htotal : (Words.saturate (q.count t)).toNat = q.count t := by
    rw [Words.toNat_saturate]
    omega
  have hlist : ∀ d w, (Storage.present t).list ⟨filter, k, d, w⟩ =
      .ok ⟨Words.saturate (q.count t), (Query.select ⟨filter, k, d, w⟩ t).rows⟩ := by
    intro d w
    have hs : (Query.select ⟨filter, k, d, w⟩ t).total = Words.saturate (q.count t) :=
      Query.select_total _ t
    rw [← hs]
    rfl
  refine ⟨Words.saturate (q.count t), htotal, ⟨_, hlist _ _, ?_⟩, fun w => ?_⟩
  · rw [hlist, Query.select_backward filter k ht]
  · refine ⟨w.mirror (q.count t), ?_, ?_, _, hlist _ _, ?_⟩
    · rw [htotal, w.mirror_start hn]
    · rw [htotal, w.mirror_limit hn]
    · rw [hlist, Query.select_backward_window filter k ht hl]

/-- By time of failure, where two rows tie and one has no time: backward all but the first of three
rows, up to the largest limit there is. -/
theorem list_mirror_failures :
    let t : Table := [⟨"b.org", ⟨none, 5, 0⟩, some 3⟩, ⟨"a.org", ⟨some (-2), 0, 7⟩, none⟩,
      ⟨"d.net", ⟨some 4, 1, 7⟩, none⟩, ⟨"c.org", ⟨some (-2), 1, 7⟩, none⟩]
    t.Distinct ∧ t.length ≤ 0x7FFFFFFFFFFFFFFF ∧ ∃ rows : List Destination,
      rows = [⟨"b.org", ⟨none, 5, 0⟩, some 3⟩, ⟨"a.org", ⟨some (-2), 0, 7⟩, none⟩] ∧
      (Storage.present t).list ⟨some "org", .failureTs, .forward, some ⟨0, 2⟩⟩ = .ok ⟨3, rows⟩ ∧
      (Storage.present t).list
        ⟨some "org", .failureTs, .backward, some ⟨1, 0xFFFFFFFFFFFFFFFF⟩⟩ =
          .ok ⟨3, rows.reverse⟩ := by
  intro t
  have ht : t.Distinct := by decide
  have hl : t.length ≤ 0x7FFFFFFFFFFFFFFF := by decide
  obtain ⟨total, htotal, -, hwindow⟩ := list_mirror t (some "org") .failureTs ht hl
  obtain rfl : total = 3 := by
    rw [← UInt64.toNat_inj, htotal]
    decide +kernel
  obtain ⟨⟨start, limit⟩, hstart, hlimit, rows, hforward, hbackward⟩ :=
    hwindow ⟨1, 0xFFFFFFFFFFFFFFFF⟩
  obtain rfl : start = 0 := UInt64.toNat_inj.mp hstart
  obtain rfl : limit = 2 := UInt64.toNat_inj.mp hlimit
  have hlisting : Query.listing ⟨some "org", .failureTs, .forward, some ⟨0, 2⟩⟩ t =
      [⟨"b.org", ⟨none, 5, 0⟩, some 3⟩, ⟨"a.org", ⟨some (-2), 0, 7⟩, none⟩,
        ⟨"c.org", ⟨some (-2), 1, 7⟩, none⟩] :=
    Query.listing_eq _ ht (by decide +kernel) (by decide +kernel)
  have hrows : rows = [⟨"b.org", ⟨none, 5, 0⟩, some 3⟩, ⟨"a.org", ⟨some (-2), 0, 7⟩, none⟩] := by
    have hselect : (Query.select ⟨some "org", .failureTs, .forward, some ⟨0, 2⟩⟩ t).rows = rows :=
      congrArg Found.rows (Except.ok.inj hforward)
    have hcount : Query.count ⟨some "org", .failureTs, .forward, some ⟨0, 2⟩⟩ t = 3 := by
      decide +kernel
    rw [← hselect, Query.select_rows _ hl, hlisting, hcount]
    rfl
  exact ⟨ht, hl, rows, hrows, hforward, hbackward⟩

end Storage
end PeerRoster
