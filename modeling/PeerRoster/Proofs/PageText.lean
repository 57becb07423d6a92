import PeerRoster.Proofs.RowText
import PeerRoster.Service

/-! The text of a page says what is on the page: it is JSON without control characters, and its
rows, its total and its token are read back from it. -/
namespace PeerRoster

/-- A text without control characters. -/
def Uncontrolled (text : List Char) : Prop := ∀ c ∈ text, 0x20 ≤ c.toNat

instance (text : List Char) : Decidable (Uncontrolled text) :=
  List.decidableBAll _ text

namespace Uncontrolled

theorem cons {c : Char} {text : List Char} (hc : 0x20 ≤ c.toNat) (h : Uncontrolled text) :
    Uncontrolled (c :: text) :=
  List.forall_mem_cons.mpr ⟨hc, h⟩

theorem append {text text' : List Char} (h : Uncontrolled text) (h' : Uncontrolled text') :
    Uncontrolled (text ++ text') :=
  List.forall_mem_append.mpr ⟨h, h'⟩

theorem decimal (n : ℕ) : Uncontrolled (Numeral.decimal n) := by
  have hd : ∀ d < 10, 0x20 ≤ (Nat.digitChar d).toNat := by decide
  exact List.forall_mem_map.mpr fun d h => hd d (Numeral.digits_lt n d h)

theorem decimalInt (n : Int) : Uncontrolled (Numeral.decimalInt n) := by
  cases n with
  | ofNat n => exact decimal n
  | negSucc n => exact (decimal (n + 1)).cons (by decide)

theorem escape (c : Char) : Uncontrolled (Json.escape c) := by
  have hd : ∀ d < 16, 0x20 ≤ (Nat.digitChar d).toNat := by decide
  unfold Json.escape
  split
  case h_8 =>
    split
    next hc =>
      have hdigits : Uncontrolled [Nat.digitChar (c.toNat / 16), Nat.digitChar (c.toNat % 16)] :=
        .cons (hd _ (by omega)) (.cons (hd _ (by omega)) nofun)
      exact append (show Uncontrolled ['\\', 'u', '0', '0'] by decide) hdigits
    next hc => exact .cons (by omega) nofun
  all_goals decide

theorem spell (l : Json.Literal) : Uncontrolled (Json.spell l) := by
  cases l with
  | text s =>
    refine .cons (by decide) (append ?_ (by decide))
    intro c hc
    obtain ⟨d, -, hc⟩ := List.mem_flatMap.mp hc
    exact escape d c hc
  | broken d => cases d <;> decide

end Uncontrolled

namespace Json

mutual

theorem uncontrolled_chars (v : Json) : Uncontrolled v.chars := by
  cases v with
  | null => decide
  | bool b => cases b <;> decide
  | int n => exact .decimalInt n
  | real d => rcases d with _ | _ | _ <;> decide
  | str l => exact .spell l
  | arr items =>
    exact .cons (by decide) ((uncontrolled_itemChars items).append (by decide))
  | obj members =>
    exact .cons (by decide) ((uncontrolled_memberChars members).append (by decide))

theorem uncontrolled_itemChars (items : List Json) : Uncontrolled (itemChars items) := by
  cases items with
  | nil => exact nofun
  | cons v r =>
    cases r with
    | nil => exact uncontrolled_chars v
    | cons w r =>
      exact (uncontrolled_chars v).append (.cons (by decide) (uncontrolled_itemChars (w :: r)))

theorem uncontrolled_memberChars (members : List (Literal × Json)) :
    Uncontrolled (memberChars members) := by
  cases members with
  | nil => exact nofun
  | cons m r =>
    obtain ⟨k, v⟩ := m
    cases r with
    | nil => exact (Uncontrolled.spell k).append (.cons (by decide) (uncontrolled_chars v))
    | cons m r =>
      exact (Uncontrolled.spell k).append (.cons (by decide)
        ((uncontrolled_chars v).append (.cons (by decide) (uncontrolled_memberChars (m :: r)))))

end

theorem uncontrolled_render (v : Json) : Uncontrolled v.render.toList := by
  rw [render, String.toList_ofList]
  exact v.uncontrolled_chars

end Json

namespace Page

theorem mapM_ofJson?_toJson (rows : List Destination) :
    (rows.map Destination.toJson).mapM Destination.ofJson? = some rows :=
  mapM_map_eq_some fun d _ => d.ofJson?_toJson

theorem eq_of_toJson {p q : Page} (h : p.toJson = q.toJson) : p = q := by
  rw [toJson, toJson] at h
  obtain ⟨rows, total, token⟩ := p
  obtain ⟨rows', total', token'⟩ := q
  simp only [Json.ofUInt64, List.cons_append, List.nil_append, Json.obj.injEq,
    List.cons.injEq, Prod.mk.injEq, Json.arr.injEq, Json.int.injEq, true_and] at h
  obtain ⟨hrows, htotal, htoken⟩ := h
  have hmap := congrArg (List.mapM Destination.ofJson?) hrows
  rw [mapM_ofJson?_toJson, mapM_ofJson?_toJson] at hmap
  obtain rfl := Option.some.inj hmap
  obtain rfl := UInt64.toNat_inj.mp (Int.ofNat.inj htotal)
  have hsame : token = token' := by
    cases token <;> cases token' <;> simp at htoken ⊢
    exact htoken
  rw [hsame]

theorem read?_render (p : Page) :
    ∃ rows, Json.read? (Utf8.bytes p.toJson.render) = some (.obj (
        [(.text "destinations", .arr rows), (.text "total", .int p.total.toNat)] ++
          p.nextToken.toList.map fun token => (.text "next_token", .str (.text token)))) ∧
      rows.mapM Destination.ofJson? = some p.destinations :=
  ⟨_, Json.read?_render p.toJson, mapM_ofJson?_toJson p.destinations⟩

/-- The text of a page is JSON without control characters. What is read from it is an object with
the rows in order, the total, and the token exactly if there is one. Hence no two pages have the
same text. -/
theorem render_faithful (p : Page) :
    Json.Spells p.toJson.render.toList p.toJson ∧
    (∀ c ∈ p.toJson.render.toList, 0x20 ≤ c.toNat) ∧
    (∃ rows, Json.read? (Utf8.bytes p.toJson.render) = some (.obj (
        [(.text "destinations", .arr rows), (.text "total", .int p.total.toNat)] ++
          p.nextToken.toList.map fun token => (.text "next_token", .str (.text token)))) ∧
      rows.mapM Destination.ofJson? = some p.destinations) ∧
    ∀ q : Page, q.toJson.render = p.toJson.render ↔ q = p := by
  refine ⟨p.toJson.spells_render, p.toJson.uncontrolled_render, p.read?_render,
    fun q => ⟨fun h => ?_, fun h => h ▸ rfl⟩⟩
  have hread := Json.read?_render q.toJson
  rw [h, Json.read?_render] at hread
  exact (eq_of_toJson (Option.some.inj hread)).symm

/-- A page with an empty token differs from one without a token in its text, and a name of control
characters is written without them. -/
theorem render_faithful_escaped :
    let p : Page := ⟨[⟨"\x00\x1f\n\"\\", ⟨some (-1), 0, 5⟩, none⟩], 0xFFFFFFFFFFFFFFFF, some ""⟩
    '\\' ∈ p.toJson.render.toList ∧ 0x20 ≤ '\\'.toNat ∧
    { p with nextToken := none }.toJson.render ≠ p.toJson.render := by
  intro p
  obtain ⟨-, hcontrol, -, hsame⟩ := render_faithful p
  have hslash : '\\' ∈ p.toJson.render.toList := by
    rw [Json.render, String.toList_ofList]
    decide +kernel
  exact ⟨hslash, hcontrol _ hslash, (hsame _).not.mpr (by decide)⟩

end Page
end PeerRoster
