import Mathlib.Data.List.Infix
import PeerRoster.Proofs.Listing
import PeerRoster.Proofs.Utf8

/-! Searching a name byte by byte finds what searching it character by character finds: the first
byte of a character begins one wherever it stands, and no other byte does. -/
namespace PeerRoster

namespace Utf8

theorem prefixCode_utf8EncodeChar : PrefixCode String.utf8EncodeChar where
  ne_nil _ := String.utf8EncodeChar_ne_nil
  eq_of_append {c d u v} h := by
    have hs := congrArg symbols h
    rw [symbols_utf8EncodeChar, symbols_utf8EncodeChar] at hs
    exact Option.some.inj (List.cons.inj hs).1

theorem isUTF8FirstByte_iff {c : Char} {u r : List UInt8} {b : UInt8}
    (h : String.utf8EncodeChar c = u ++ b :: r) : b.IsUTF8FirstByte ↔ u = [] := by
  have hlt : u.length < (String.utf8EncodeChar c).length := by simp [h]
  have hb : (String.utf8EncodeChar c)[u.length] = b := by simp [h]
  rw [← hb, UInt8.isUTF8FirstByte_getElem_utf8EncodeChar, List.length_eq_zero_iff]

theorem exists_cons_encode {cs : List Char} (h : cs ≠ []) :
    ∃ b r, encode cs = b :: r ∧ b.IsUTF8FirstByte := by
  cases cs with
  | nil => contradiction
  | cons c cs =>
    obtain ⟨b, r, hc⟩ := List.exists_cons_of_ne_nil (String.utf8EncodeChar_ne_nil (c := c))
    exact ⟨b, r ++ encode cs, by simp [hc], (isUTF8FirstByte_iff (u := []) hc).mpr rfl⟩

/-- Wherever a byte that begins a character follows, a text is cut between two characters. -/
theorem exists_split {cs : List Char} {u r : List UInt8} {b : UInt8}
    (h : encode cs = u ++ b :: r) (hb : b.IsUTF8FirstByte) :
    ∃ pre post, cs = pre ++ post ∧ encode pre = u ∧ encode post = b :: r := by
  induction cs generalizing u with
  | nil => simp at h
  | cons c cs ih =>
    rcases List.append_eq_append_iff.mp h with ⟨w, rfl, hw⟩ | ⟨w, hw, hr⟩
    case inl =>
      obtain ⟨pre, post, rfl, rfl, hpost⟩ := ih hw
      exact ⟨c :: pre, post, rfl, rfl, hpost⟩
    -- The cut is in the bytes of `c`, so it is before the first or behind the last of them.
    case inr =>
      cases w with
      | nil =>
        rw [List.append_nil] at hw
        exact ⟨[c], cs, rfl, by simp [hw], hr.symm⟩
      | cons b' w =>
        obtain ⟨rfl, -⟩ := List.cons.inj hr
        obtain rfl := (isUTF8FirstByte_iff hw).mp hb
        exact ⟨[], c :: cs, rfl, rfl, h⟩

/-- Where the bytes of some characters occur in the bytes of a text, there the characters occur. No
characters are looked for at the front only. -/
theorem exists_occurrence {part cs : List Char} {u v : List UInt8}
    (h : encode cs = u ++ encode part ++ v) (hp : part ≠ [] ∨ u = []) :
    ∃ pre post, cs = pre ++ part ++ post ∧ encode pre = u ∧ encode post = v := by
  have hfront : ∃ pre rest, cs = pre ++ rest ∧ encode pre = u ∧ encode rest = encode part ++ v := by
    by_cases hu : u = []
    · exact ⟨[], cs, rfl, hu.symm, by rw [h, hu, List.nil_append]⟩
    · obtain ⟨b, r, hpart, hb⟩ := exists_cons_encode (hp.resolve_right hu)
      rw [hpart, List.append_assoc] at h
      rw [hpart]
      exact exists_split h hb
  obtain ⟨pre, rest, rfl, hpre, hrest⟩ := hfront
  obtain ⟨post, rfl, hpost⟩ := prefixCode_utf8EncodeChar.exists_append hrest.symm
  exact ⟨pre, post, (List.append_assoc pre part post).symm, hpre, hpost⟩

theorem encode_infix_iff (part cs : List Char) : encode part <:+: encode cs ↔ part <:+: cs := by
  constructor
  · rintro ⟨u, v, h⟩
    by_cases hp : part = []
    · exact hp ▸ List.nil_infix
    · obtain ⟨pre, post, rfl, -, -⟩ := exists_occurrence h.symm (.inl hp)
      exact List.infix_append pre part post
  · rintro ⟨pre, post, rfl⟩
    rw [encode_append, encode_append]
    exact List.infix_append _ _ _

end Utf8

theorem contains_iff (part s : String) : contains part s = true ↔ part.toList <:+: s.toList := by
  rw [contains, occursIn_iff]
  exact Utf8.encode_infix_iff part.toList s.toList

namespace Query

variable (k : SortKey) (d : Direction) (w : Option Window)

theorem select_some (part : String) (t : Table) : select ⟨some part, k, d, w⟩ t =
    select ⟨none, k, d, w⟩ (t.filter fun row => part.toList <:+: row.name.toList) := by
  have hmatching : matching ⟨some part, k, d, w⟩ t =
      matching ⟨none, k, d, w⟩ (t.filter fun row => part.toList <:+: row.name.toList) := by
    simp only [matching, admits, List.filter_true]
    apply List.filter_congr
    intro row _
    rw [Bool.eq_iff_iff, contains_iff, decide_eq_true_iff]
  rw [select, select, hmatching]

theorem select_empty (t : Table) : select ⟨some "", k, d, w⟩ t = select ⟨none, k, d, w⟩ t := by
  rw [select_some]
  simp

end Query

namespace Storage

/-- The filter of a listing is looked for character by character, each as it is: what is found
begins and ends between two characters, and the listing is that of the rows in whose names it is
found. An empty filter is no filter. -/
theorem list_search (part : String) (k : SortKey) (d : Direction) (w : Option Window) :
    (∀ name, Query.admits ⟨some part, k, d, w⟩ name = true ↔ part.toList <:+: name.toList) ∧
    (∀ (name : String) (u v : List UInt8), Utf8.bytes name = u ++ Utf8.bytes part ++ v →
      part ≠ "" ∨ u = [] → ∃ pre post, name.toList = pre ++ part.toList ++ post ∧
        Utf8.encode pre = u ∧ Utf8.encode post = v) ∧
    (∀ t : Table, (Storage.present t).list ⟨some part, k, d, w⟩ =
      (Storage.present (t.filter fun row => part.toList <:+: row.name.toList)).list
        ⟨none, k, d, w⟩) ∧
    ∀ s : Storage, s.list ⟨some "", k, d, w⟩ = s.list ⟨none, k, d, w⟩ := by
  refine ⟨fun name => contains_iff part name, fun name u v h hp => ?_, fun t => ?_, fun s => ?_⟩
  · exact Utf8.exists_occurrence h (hp.imp_left (mt String.toList_eq_nil_iff.mp))
  · exact congrArg Except.ok (Query.select_some k d w part t)
  · exact congrArg s.table.map (funext (Query.select_empty k d w))

/-- The bytes of a filter of special characters are found behind a character of four bytes; the same
filter in another case is not found. -/
theorem list_search_wide :
    let name := "a😀É%_\x00é"
    Utf8.bytes name = Utf8.bytes "a😀" ++ Utf8.bytes "É%_\x00" ++ Utf8.bytes "é" ∧
    (∃ pre post, name.toList = pre ++ "É%_\x00".toList ++ post ∧
      Utf8.encode pre = Utf8.bytes "a😀" ∧ Utf8.encode post = Utf8.bytes "é") ∧
    Query.admits ⟨some "é%", .name, .forward, none⟩ name = false := by
  intro name
  have hbytes : Utf8.bytes name =
      Utf8.bytes "a😀" ++ Utf8.bytes "É%_\x00" ++ Utf8.bytes "é" := by decide +kernel
  have hcase : ¬ "é%".toList <:+: name.toList := by decide +kernel
  refine ⟨hbytes, ?_, ?_⟩
  · exact (list_search "É%_\x00" .name .forward none).2.1 name _ _ hbytes (.inl (by decide))
  · rw [Bool.eq_false_iff, ne_eq, (list_search "é%" .name .forward none).1]
    exact hcase

end Storage
end PeerRoster
