import PeerRoster.Proofs.Reading
import PeerRoster.Proofs.Record
import PeerRoster.Server

/-! The settings are read from every text of an object that holds them, and from no other object.
What is wrong with another object is a fault in a field of the settings, or a name that is
illegible; members of other names do no harm. -/
namespace PeerRoster

namespace Json

/-- Whether a value is written as an integer literal from zero to `max`. -/
def IsNatural (max : ℕ) (v : Json) : Prop := ∃ n ≤ max, v.Spells (Numeral.decimal n)

theorem isNatural_iff (max : ℕ) (v : Json) : v.IsNatural max ↔ ∃ n : ℕ, n ≤ max ∧ v = .int n := by
  constructor
  · rintro ⟨n, hn, h⟩
    exact ⟨n, hn, h.unique (spells_int n)⟩
  · rintro ⟨n, hn, rfl⟩
    exact ⟨n, hn, spells_int n⟩

theorem isNatural_int (max : ℕ) (z : Int) : (Json.int z).IsNatural max ↔ 0 ≤ z ∧ z ≤ max := by
  rw [isNatural_iff]
  constructor
  · rintro ⟨n, hn, h⟩
    obtain rfl := Json.int.inj h
    omega
  · rintro ⟨hz, hle⟩
    exact ⟨z.toNat, by omega, by rw [Int.toNat_of_nonneg hz]⟩

/-- No literal with a fraction or an exponent is an integer literal, nor is minus zero. -/
theorem not_isNatural_real (max : ℕ) (d : Option Defect) : ¬ (Json.real d).IsNatural max := by
  simp [isNatural_iff]

end Json

namespace Config

/-- The fields that hold a text. -/
def textual : List String := ["address", "database_url", "secret"]

/-- The fields that must be there. -/
def mandatory : List String := ["address", "port", "database_url", "secret"]

/-- What may be wrong with the members of an object. -/
inductive Faulty (ms : Json.Members) : Prop
  | illegible {d : Json.Defect} {v : Json} : (.broken d, v) ∈ ms → Faulty ms
  | repeated {key : String} {v w : Json} :
      key ∈ fields → List.Sublist [(.text key, v), (.text key, w)] ms → Faulty ms
  | missing {key : String} : key ∈ mandatory → (∀ v, (.text key, v) ∉ ms) → Faulty ms
  | null {key : String} : key ∈ mandatory → (.text key, .null) ∈ ms → Faulty ms
  | notText {key : String} {v : Json} :
      key ∈ textual → (.text key, v) ∈ ms → (∀ s, v ≠ .str (.text s)) → Faulty ms
  | port {v : Json} : (.text "port", v) ∈ ms → ¬ v.IsNatural 0xFFFF → Faulty ms
  | maxPageSize {v : Json} : (.text "max_page_size", v) ∈ ms → v ≠ .null →
      ¬ v.IsNatural 0xFFFFFFFFFFFFFFFF → Faulty ms

theorem mem_fields : ∀ key ∈ mandatory, key ∈ fields := by decide

theorem mem_mandatory : ∀ key ∈ textual, key ∈ mandatory := by decide

theorem ofMembers?_of_holds {c : Config} {ms : Json.Members} (h : Json.Holds ms c.record) :
    ofMembers? ms = some c := by
  have haddress := h.required? "address" (.str (.text c.address))
    (by simp [record, fields]) nofun Json.text?
  have hport := h.required? "port" (.int c.port.toNat) (by simp [record, fields]) nofun Json.uint16?
  have hurl := h.required? "database_url" (.str (.text c.databaseUrl))
    (by simp [record, fields]) nofun Json.text?
  have hsecret := h.required? "secret" (.str (.text c.secret))
    (by simp [record, fields]) nofun Json.text?
  have hsize := h.optional? "max_page_size" (.ofNullable .ofUInt64 c.maxPageSize)
    (by simp [record, fields]) Json.uint64?
  rw [(Json.uint16?_eq_some_iff _ _).mpr rfl] at hport
  have hnullable := Json.nullable?_eq_some_iff Json.uint64?_eq_some_iff Json.ofUInt64_ne_null
  rw [(hnullable _ _).mpr rfl] at hsize
  have hw : Json.wellNamed fields ms = true := h.wellNamed
  rw [ofMembers?, if_pos hw, haddress, hport, hurl, hsecret, hsize]
  rfl

theorem holds_of_ofMembers? {c : Config} {ms : Json.Members} (h : ofMembers? ms = some c) :
    Json.Holds ms c.record := by
  rw [ofMembers?] at h
  split at h
  next hw =>
    simp only [Option.bind_eq_bind, Option.bind_eq_some_iff] at h
    obtain ⟨address, haddress, port, hport, url, hurl, secret, hsecret, size, hsize, hc⟩ := h
    obtain rfl := Option.some.inj hc
    refine ⟨((Json.wellNamed_iff _ _).mp hw).1, ?_⟩
    simp only [record, fields, List.zip_cons_cons, List.zip_nil_left, List.forall_mem_cons]
    exact ⟨.inl (Json.named_eq_of_required? Json.text?_eq_some_iff hw (by decide) haddress),
      .inl (Json.named_eq_of_required? Json.uint16?_eq_some_iff hw (by decide) hport),
      .inl (Json.named_eq_of_required? Json.text?_eq_some_iff hw (by decide) hurl),
      .inl (Json.named_eq_of_required? Json.text?_eq_some_iff hw (by decide) hsecret),
      Json.named_eq_of_optional? Json.uint64?_eq_some_iff Json.ofUInt64_ne_null hw (by decide)
        hsize, nofun⟩
  next => cases h

theorem ofMembers?_eq_some_iff (ms : Json.Members) (c : Config) :
    ofMembers? ms = some c ↔ Json.Holds ms c.record :=
  ⟨holds_of_ofMembers?, ofMembers?_of_holds⟩

theorem exists_mem_record (c : Config) {key : String} (h : key ∈ mandatory) :
    ∃ v, (key, v) ∈ c.record ∧ v ≠ .null := by
  simp only [mandatory, List.mem_cons, List.not_mem_nil, or_false] at h
  rcases h with rfl | rfl | rfl | rfl <;> simp [record, fields]

theorem exists_text_mem_record (c : Config) {key : String} (h : key ∈ textual) :
    ∃ s, (key, .str (.text s)) ∈ c.record := by
  simp only [textual, List.mem_cons, List.not_mem_nil, or_false] at h
  rcases h with rfl | rfl | rfl <;> simp [record, fields]

theorem not_faulty_of_holds {c : Config} {ms : Json.Members} (h : Json.Holds ms c.record) :
    ¬ Faulty ms := by
  rintro (hm | ⟨hk, hsub⟩ | ⟨hk, hm⟩ | ⟨hk, hm⟩ | ⟨hk, hm, hv⟩ | ⟨hm, hv⟩ | ⟨hm, hnull, hv⟩)
  case illegible =>
    obtain ⟨name, hname⟩ := h.legible _ hm
    cases hname
  case repeated =>
    have htwo := (Json.repeated_iff _ _).mp ⟨_, _, hsub⟩
    have hone : (Json.named _ ms).length ≤ 1 := Json.named_le h.wellNamed hk
    omega
  case missing =>
    obtain ⟨v, hfield, hv⟩ := c.exists_mem_record hk
    exact hm v (h.mem_of_ne_null hfield hv)
  case null =>
    obtain ⟨v, hfield, hv⟩ := c.exists_mem_record hk
    exact hv (h.eq_of_mem hfield hm).symm
  case notText =>
    obtain ⟨s, hfield⟩ := c.exists_text_mem_record hk
    exact hv s (h.eq_of_mem hfield hm)
  case port =>
    have hlt := c.port.toNat_lt
    have hfield := h.eq_of_mem (v := .int c.port.toNat) (by simp [record, fields]) hm
    exact hv (by rw [hfield, Json.isNatural_int]; omega)
  case maxPageSize =>
    have hfield := h.eq_of_mem (v := .ofNullable .ofUInt64 c.maxPageSize)
      (by simp [record, fields]) hm
    cases hsize : c.maxPageSize with
    | none => exact hnull (by rw [hfield, hsize]; rfl)
    | some n =>
      have hlt := n.toNat_lt
      refine hv ?_
      rw [hfield, hsize, Json.ofNullable, Json.ofUInt64, Json.isNatural_int]
      omega

section

variable {ms : Json.Members} (h : ¬ Faulty ms)
include h

theorem legible_of_not_faulty : ∀ m ∈ ms, ∃ name, m.1 = .text name := by
  rintro ⟨l, v⟩ hm
  cases l with
  | text name => exact ⟨name, rfl⟩
  | broken d => exact absurd (.illegible hm) h

theorem named_le_of_not_faulty (key : String) (hk : key ∈ fields) :
    (Json.named key ms).length ≤ 1 := by
  by_contra hlen
  obtain ⟨v, w, hsub⟩ := (Json.repeated_iff key ms).mpr (by omega)
  exact h (.repeated hk hsub)

theorem exists_named_of_not_faulty (key : String) (hk : key ∈ mandatory) :
    ∃ v, Json.named key ms = [v] := by
  have hle := named_le_of_not_faulty h key (mem_fields key hk)
  have hpos : 0 < (Json.named key ms).length := List.length_pos_of_ne_nil fun hnil =>
    h (.missing hk ((Json.named_eq_nil_iff key ms).mp hnil))
  exact List.length_eq_one_iff.mp (by omega)

theorem exists_text_of_not_faulty (key : String) (hk : key ∈ textual) :
    ∃ s, Json.named key ms = [.str (.text s)] := by
  obtain ⟨v, hv⟩ := exists_named_of_not_faulty h key (mem_mandatory key hk)
  by_contra hnot
  refine h (.notText hk (Json.mem_of_named_eq hv) fun s hs => hnot ⟨s, ?_⟩)
  rw [hv, hs]

theorem exists_port_of_not_faulty : ∃ p : UInt16, Json.named "port" ms = [.int p.toNat] := by
  obtain ⟨v, hv⟩ := exists_named_of_not_faulty h "port" (by decide)
  have hnat : v.IsNatural 0xFFFF := by
    by_contra hnot
    exact h (.port (Json.mem_of_named_eq hv) hnot)
  obtain ⟨n, hn, rfl⟩ := (Json.isNatural_iff _ _).mp hnat
  refine ⟨UInt16.ofNat n, ?_⟩
  rw [hv, UInt16.toNat_ofNat', Nat.mod_eq_of_lt (by omega)]

theorem exists_size_of_not_faulty : ∃ o : Option UInt64,
    Json.named "max_page_size" ms = [.ofNullable .ofUInt64 o] ∨
      Json.ofNullable .ofUInt64 o = .null ∧ Json.named "max_page_size" ms = [] := by
  have hlen := named_le_of_not_faulty h "max_page_size" (by decide)
  match hv : Json.named "max_page_size" ms with
  | [] => exact ⟨none, .inr ⟨rfl, rfl⟩⟩
  | [v] =>
    by_cases hnull : v = .null
    · exact ⟨none, .inl (by rw [hnull]; rfl)⟩
    · have hnat : v.IsNatural 0xFFFFFFFFFFFFFFFF := by
        by_contra hnot
        exact h (.maxPageSize (Json.mem_of_named_eq hv) hnull hnot)
      obtain ⟨n, hn, rfl⟩ := (Json.isNatural_iff _ _).mp hnat
      refine ⟨some (UInt64.ofNat n), .inl ?_⟩
      rw [Json.ofNullable, Json.ofUInt64, UInt64.toNat_ofNat', Nat.mod_eq_of_lt (by omega)]
  | v :: w :: r =>
    rw [hv] at hlen
    simp at hlen

theorem exists_holds_of_not_faulty : ∃ c : Config, Json.Holds ms c.record := by
  obtain ⟨address, haddress⟩ := exists_text_of_not_faulty h "address" (by decide)
  obtain ⟨port, hport⟩ := exists_port_of_not_faulty h
  obtain ⟨url, hurl⟩ := exists_text_of_not_faulty h "database_url" (by decide)
  obtain ⟨secret, hsecret⟩ := exists_text_of_not_faulty h "secret" (by decide)
  obtain ⟨size, hsize⟩ := exists_size_of_not_faulty h
  refine ⟨⟨address, port, url, secret, size⟩, legible_of_not_faulty h, ?_⟩
  simp only [record, fields, List.zip_cons_cons, List.zip_nil_left, List.forall_mem_cons]
  exact ⟨.inl haddress, .inl hport, .inl hurl, .inl hsecret, hsize, nofun⟩

end

theorem ofMembers?_eq_none_iff (ms : Json.Members) : ofMembers? ms = none ↔ Faulty ms := by
  rw [Option.eq_none_iff_forall_ne_some]
  constructor
  · intro hnone
    by_contra hnot
    obtain ⟨c, hc⟩ := exists_holds_of_not_faulty hnot
    exact hnone c (ofMembers?_of_holds hc)
  · intro hfault c hc
    exact not_faulty_of_holds (holds_of_ofMembers? hc) hfault

/-- From a text of an object, in whatever layout, the settings are read that the object holds, each
field once, in any order and with any members of other names, where the bound may be left out if
there is none. The object is refused exactly if it is faulty. -/
theorem ofText?_exact {text : String} {ms : Json.Members} (h : Json.Spells text.toList (.obj ms)) :
    (∀ c, ofText? text = some c ↔ Json.Holds ms c.record) ∧ (ofText? text = none ↔ Faulty ms) := by
  have hread : ofText? text = ofMembers? ms := by
    rw [ofText?, Json.parse?_of_spells h]
    rfl
  rw [hread]
  exact ⟨ofMembers?_eq_some_iff ms, ofMembers?_eq_none_iff ms⟩

/-- The largest bound, and none, beside members of another name of which one is minus zero; bounds
that are out of range or no integer literals; and a field that is repeated. -/
theorem ofText?_exact_limits :
    let before := "\x7b \"x\" : -0,\n\"secret\":\"\",\"port\":65535,\"address\":\"\\u0041\"," ++
      "\"x\":[1],\"database_url\":\"d\",\"max_page_size\":"
    let text := fun size : String => before ++ size ++ "\x7d"
    ofText? (text "18446744073709551615") =
      some ⟨"A", 65535, "d", "", some 0xFFFFFFFFFFFFFFFF⟩ ∧
    ofText? (text "null") = some ⟨"A", 65535, "d", "", none⟩ ∧
    ofText? (text "18446744073709551616") = none ∧ ofText? (text "-0") = none ∧
    ofText? (text "1e2") = none ∧
    ofText? "\x7b\"secret\":null,\"x\":0,\"secret\":\"s\"\x7d" = none := by
  intro before text
  let ms : Json → Json.Members := fun size => [(.text "x", .real none),
    (.text "secret", .str (.text "")), (.text "port", .int 65535),
    (.text "address", .str (.text "A")), (.text "x", .arr [.int 1]),
    (.text "database_url", .str (.text "d")), (.text "max_page_size", size)]
  have hblank : Json.IsGap [' '] := by decide
  have hbreak : Json.IsGap ['\n'] := by decide
  have hword := fun s : String => Json.spells_spell (.text s)
  have hletter := Json.Token.Spells.str (.unit (c := 'A')
    ⟨'0', '0', '4', '1', [0, 0, 4, 1], rfl, by decide, by decide⟩ .nil)
  have hletterText : Json.Literal.cons 'A' (.text "") = .text "A" := by decide +kernel
  rw [hletterText] at hletter
  have hbefore : Json.Lays before.toList _ := (congrArg (Json.Lays · _) (by decide +kernel)).mp <|
    .mark .openBrace <| .cons hblank (hword "x") <| .cons hblank (.mark .colon) <|
    .cons hblank (Json.spells_spellReal none) <| .mark .comma <| .cons hbreak (hword "secret") <|
    .mark .colon <| .token (hword "") <| .mark .comma <| .token (hword "port") <|
    .mark .colon <| .token (.int 65535) <| .mark .comma <| .token (hword "address") <|
    .mark .colon <| .token hletter <| .mark .comma <| .token (hword "x") <| .mark .colon <|
    .mark .openBracket <| .token (.int 1) <| .mark .closeBracket <| .mark .comma <|
    .token (hword "database_url") <| .mark .colon <| .token (hword "d") <| .mark .comma <|
    .token (hword "max_page_size") <| .mark .colon Json.lays_nil
  have hobject : ∀ {q : String} {size : Json}, size.Spells q.toList →
      Json.Spells (text q).toList (.obj (ms size)) := by
    intro q size hq
    have h := hbefore.append (hq.append (.mark .closeBrace Json.lays_nil))
    simpa [Json.Spells, Json.tokens, Json.memberTokens, Json.itemTokens, Json.Mark.char, ms, text]
      using h
  have hint : ∀ {q : String} (z : Int), Numeral.decimalInt z = q.toList →
      (Json.int z).Spells q.toList := fun z hz => hz ▸ Json.spells_int z
  have hmax := hint 18446744073709551615 (q := "18446744073709551615") (by decide +kernel)
  have hover := hint 18446744073709551616 (q := "18446744073709551616") (by decide +kernel)
  have hnull : Json.null.Spells "null".toList := Json.lays_token .null
  have hminus : (Json.real none).Spells "-0".toList := Json.lays_token (Json.spells_spellReal none)
  have hpower : Json.Spells "1e2".toList (.real _) := Json.lays_token <|
    .real (x := ⟨false, [1], [], false, [2]⟩) ⟨[], ['e', '2'],
      ⟨by decide, 1, [], rfl, fun _ => rfl⟩, .absent,
      @Json.Number.SpellsExponent.present 'e' [] false [2] (by decide) (by decide) (by decide)
        (by decide), rfl⟩ (.inr (.inl (by decide)))
  have hrefused : ∀ {q : String} {size : Json}, size.Spells q.toList → size ≠ .null →
      ¬ size.IsNatural 0xFFFFFFFFFFFFFFFF → ofText? (text q) = none := fun {q v} hq hne hv =>
    (ofText?_exact (hobject hq)).2.mpr (.maxPageSize (v := v) (by simp [ms]) hne hv)
  have hrepeated : Json.Spells "\x7b\"secret\":null,\"x\":0,\"secret\":\"s\"\x7d".toList
      (.obj [(.text "secret", .null), (.text "x", .int 0), (.text "secret", .str (.text "s"))]) :=
    (congrArg (Json.Spells · _) (by decide +kernel)).mp <|
    .mark .openBrace <| .token (hword "secret") <|
    .mark .colon <| .token .null <| .mark .comma <| .token (hword "x") <| .mark .colon <|
    .token (.int 0) <| .mark .comma <| .token (hword "secret") <| .mark .colon <|
    .token (hword "s") <| .mark .closeBrace Json.lays_nil
  refine ⟨?_, ?_, ?_, ?_, ?_, ?_⟩
  · refine ((ofText?_exact (hobject hmax)).1 _).mpr ⟨by simp [ms], ?_⟩
    simp [ms, record, fields, Json.named, Json.ofNullable, Json.ofUInt64]
  · refine ((ofText?_exact (hobject hnull)).1 _).mpr ⟨by simp [ms], ?_⟩
    simp [ms, record, fields, Json.named, Json.ofNullable]
  · exact hrefused hover (by simp) (by simp [Json.isNatural_int])
  · exact hrefused hminus (by simp) (Json.not_isNatural_real _ _)
  · exact hrefused hpower (by simp) (Json.not_isNatural_real _ _)
  · exact (ofText?_exact hrepeated).2.mpr
      (.repeated (show "secret" ∈ fields by decide) (.cons_cons _ (.cons _ (List.Sublist.refl _))))

end Config
end PeerRoster
