import PeerRoster.Json.Value

/-! A record is read from any object that holds it: its fields may be in any order, those that are
null may be left out, and members of other names may be anywhere among them. What is read from an
object is what the object holds. -/
namespace PeerRoster
namespace Json

theorem text?_eq_some_iff (v : Json) (s : String) : v.text? = some s ↔ v = .str (.text s) := by
  cases v with
  | str t => cases t <;> simp [text?, Literal.text?]
  | _ => simp [text?]

theorem int?_eq_some_iff (v : Json) (z : Int) : v.int? = some z ↔ v = .int z := by
  cases v <;> simp [int?]

theorem uint64?_eq_some_iff (v : Json) (n : UInt64) : v.uint64? = some n ↔ v = .ofUInt64 n := by
  simp [uint64?, Option.bind_eq_some_iff, int?_eq_some_iff, Words.uint64?_eq_some_iff, ofUInt64]

theorem uint16?_eq_some_iff (v : Json) (n : UInt16) : v.uint16? = some n ↔ v = .int n.toNat := by
  simp [uint16?, Option.bind_eq_some_iff, int?_eq_some_iff, Words.uint16?_eq_some_iff]

theorem ofUInt64_ne_null (n : UInt64) : ofUInt64 n ≠ .null := nofun

theorem nullable?_eq_some_iff {α : Type} {read : Json → Option α} {write : α → Json}
    (hread : ∀ v a, read v = some a ↔ v = write a) (hwrite : ∀ a, write a ≠ .null) (v : Json)
    (o : Option α) : nullable? read v = some o ↔ v = ofNullable write o := by
  cases v with
  | null =>
    cases o with
    | none => simp [nullable?, ofNullable]
    | some a => simp [nullable?, ofNullable, (hwrite a).symm]
  | _ => cases o <;> simp [nullable?, ofNullable, hread]

theorem mem_named_iff (key : String) (v : Json) (ms : Members) :
    v ∈ named key ms ↔ (.text key, v) ∈ ms := by
  simp [named]

theorem mem_of_named_eq {key : String} {v : Json} {ms : Members} (h : named key ms = [v]) :
    (.text key, v) ∈ ms := by
  rw [← mem_named_iff, h]
  exact List.mem_singleton_self v

theorem named_eq_nil_iff (key : String) (ms : Members) :
    named key ms = [] ↔ ∀ v, (.text key, v) ∉ ms := by
  simp [List.eq_nil_iff_forall_not_mem, mem_named_iff]

theorem repeated_iff (key : String) (ms : Members) :
    (∃ v w, List.Sublist [(.text key, v), (.text key, w)] ms) ↔ 2 ≤ (named key ms).length := by
  constructor
  · rintro ⟨v, w, h⟩
    have hnamed := (h.filter (·.1 == .text key)).map (·.2)
    simpa [named] using hnamed.length_le
  · intro h
    have hsub := List.filter_sublist (p := (·.1 == .text key)) (l := ms)
    have hname : ∀ m ∈ ms.filter (·.1 == .text key), m.1 = .text key := fun m hm =>
      eq_of_beq (List.mem_filter.mp hm).2
    rcases hms : ms.filter (·.1 == .text key) with _ | ⟨⟨k, v⟩, _ | ⟨⟨l, w⟩, r⟩⟩
    · simp [named, hms] at h
    · simp [named, hms] at h
    · rw [hms] at hsub hname
      obtain rfl : k = .text key := hname (k, v) (by simp)
      obtain rfl : l = .text key := hname (l, w) (by simp)
      exact ⟨v, w, (List.sublist_append_left [_, _] r).trans hsub⟩

section

variable {fields : List String} {key : String} {ms : Members} {α : Type} {read : Json → Option α}
  {write : α → Json}

theorem wellNamed_iff (fields : List String) (ms : Members) : wellNamed fields ms = true ↔
    (∀ m ∈ ms, ∃ name, m.1 = .text name) ∧ ∀ key ∈ fields, (named key ms).length ≤ 1 := by
  have hlegible : ∀ l : Literal, l.text?.isSome = true ↔ ∃ name, l = .text name := by
    intro l
    cases l <;> simp [Literal.text?]
  simp [wellNamed, hlegible]

theorem named_le (hw : wellNamed fields ms = true) (hk : key ∈ fields) :
    (named key ms).length ≤ 1 :=
  ((wellNamed_iff fields ms).mp hw).2 key hk

theorem named_of_head? {v : Json} (hw : wellNamed fields ms = true) (hk : key ∈ fields)
    (h : (named key ms).head? = some v) : named key ms = [v] := by
  have hlen := named_le hw hk
  obtain ⟨r, hr⟩ := List.head?_eq_some_iff.mp h
  rw [hr, List.length_cons] at hlen
  rw [hr, List.eq_nil_of_length_eq_zero (l := r) (by omega)]

theorem named_of_required? {a : α} (hw : wellNamed fields ms = true) (hk : key ∈ fields)
    (h : required? read key ms = some a) : ∃ v, named key ms = [v] ∧ read v = some a := by
  obtain ⟨v, hv, ha⟩ := Option.bind_eq_some_iff.mp h
  exact ⟨v, named_of_head? hw hk hv, ha⟩

theorem named_eq_of_required? (hread : ∀ v a, read v = some a ↔ v = write a) {a : α}
    (hw : wellNamed fields ms = true) (hk : key ∈ fields) (h : required? read key ms = some a) :
    named key ms = [write a] := by
  obtain ⟨v, hv, ha⟩ := named_of_required? hw hk h
  rw [hv, (hread v a).mp ha]

theorem named_eq_of_optional? (hread : ∀ v a, read v = some a ↔ v = write a)
    (hwrite : ∀ a, write a ≠ .null) {o : Option α} (hw : wellNamed fields ms = true)
    (hk : key ∈ fields) (h : optional? read key ms = some o) :
    named key ms = [ofNullable write o] ∨ ofNullable write o = .null ∧ named key ms = [] := by
  rw [optional?] at h
  split at h
  next hnone =>
    obtain rfl := Option.some.inj h
    exact .inr ⟨rfl, List.head?_eq_none_iff.mp hnone⟩
  next v hv =>
    rw [nullable?_eq_some_iff hread hwrite] at h
    rw [← h]
    exact .inl (named_of_head? hw hk hv)

end

/-- Whether members hold a record: every name is legible, and each field is there once, unless it is
null and left out. Nothing is said of members of other names. -/
structure Holds (ms : Members) (record : List (String × Json)) : Prop where
  legible : ∀ m ∈ ms, ∃ name, m.1 = .text name
  held : ∀ field ∈ record, named field.1 ms = [field.2] ∨ field.2 = .null ∧ named field.1 ms = []

namespace Holds

variable {ms : Members} {record : List (String × Json)}

theorem wellNamed (h : Holds ms record) : wellNamed (record.map (·.1)) ms = true := by
  refine (wellNamed_iff _ _).mpr ⟨h.legible, fun key hkey => ?_⟩
  obtain ⟨field, hfield, rfl⟩ := List.mem_map.mp hkey
  rcases h.held field hfield with hn | ⟨-, hn⟩ <;> simp [hn]

theorem eq_of_mem (h : Holds ms record) {key : String} {v w : Json} (hfield : (key, v) ∈ record)
    (hw : (.text key, w) ∈ ms) : w = v := by
  have hmem : w ∈ named key ms := (mem_named_iff key w ms).mpr hw
  rcases h.held _ hfield with hn | ⟨-, hn⟩ <;> rw [hn] at hmem
  · exact List.mem_singleton.mp hmem
  · cases hmem

theorem mem_of_ne_null (h : Holds ms record) {key : String} {v : Json} (hfield : (key, v) ∈ record)
    (hv : v ≠ .null) : (.text key, v) ∈ ms := by
  rcases h.held _ hfield with hn | ⟨hnull, -⟩
  · exact mem_of_named_eq hn
  · exact absurd hnull hv

theorem required? {α : Type} (h : Holds ms record) (key : String) (v : Json)
    (hfield : (key, v) ∈ record) (hv : v ≠ .null) (read : Json → Option α) :
    required? read key ms = read v := by
  rcases h.held _ hfield with hn | ⟨hnull, -⟩
  · simp [Json.required?, hn]
  · exact absurd hnull hv

theorem optional? {α : Type} (h : Holds ms record) (key : String) (v : Json)
    (hfield : (key, v) ∈ record) (read : Json → Option α) :
    optional? read key ms = nullable? read v := by
  rcases h.held _ hfield with hn | ⟨hnull, hn⟩
  · simp [Json.optional?, hn]
  · have hv : v = .null := hnull
    simp [Json.optional?, hn, hv, nullable?]

end Holds

theorem int64?_ofInt64 (n : Int64) : int64? (ofInt64 n) = some n := Words.int64?_toInt n

theorem nullable?_ofInt64 (o : Option Int64) :
    nullable? int64? (ofNullable ofInt64 o) = some o := by
  cases o with
  | none => rfl
  | some n => exact congrArg (Option.map some) (int64?_ofInt64 n)

end Json
end PeerRoster
