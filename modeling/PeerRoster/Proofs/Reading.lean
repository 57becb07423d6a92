import Mathlib.Data.List.Chain
import PeerRoster.Json.Reader
import PeerRoster.Proofs.Scalar

/-! A JSON value is read back from every text of it. The text is split into the tokens that it was
made of, and the reader's stack is followed over these: each value ends up as one entry above what
was there before. -/
namespace PeerRoster
namespace Json

/-- Of two tokens side by side one is a mark, so that no number runs into another token. -/
def Apart (ts : List Token) : Prop := ts.IsChain fun t u => t.isMark = true ∨ u.isMark = true

theorem Apart.mark (m : Mark) {ts : List Token} (h : Apart ts) : Apart (.mark m :: ts) :=
  List.isChain_cons.mpr ⟨fun _ _ => .inl rfl, h⟩

theorem Apart.append_mark {ts us : List Token} (h : Apart ts) (m : Mark) (h' : Apart us) :
    Apart (ts ++ .mark m :: us) := by
  refine List.isChain_append.mpr ⟨h, h'.mark m, ?_⟩
  rintro t - u ⟨⟩
  exact .inr rfl

theorem Apart.value_mark (v : Json) (m : Mark) {ts : List Token} (h : Apart ts) :
    Apart (.value v :: .mark m :: ts) :=
  Apart.append_mark (List.isChain_singleton _) m h

mutual

theorem apart_tokens (v : Json) : Apart v.tokens := by
  cases v with
  | arr items =>
    exact ((apart_itemTokens items).append_mark .closeBracket List.isChain_nil).mark .openBracket
  | obj members =>
    exact ((apart_memberTokens members).append_mark .closeBrace List.isChain_nil).mark .openBrace
  | _ => exact List.isChain_singleton _

theorem apart_itemTokens (items : List Json) : Apart (itemTokens items) := by
  cases items with
  | nil => exact List.isChain_nil
  | cons v r =>
    cases r with
    | nil => exact apart_tokens v
    | cons w r => exact (apart_tokens v).append_mark .comma (apart_itemTokens (w :: r))

theorem apart_memberTokens (members : List (Literal × Json)) : Apart (memberTokens members) := by
  cases members with
  | nil => exact List.isChain_nil
  | cons m r =>
    obtain ⟨k, v⟩ := m
    cases r with
    | nil => exact .value_mark _ .colon (apart_tokens v)
    | cons m r =>
      exact .value_mark _ .colon ((apart_tokens v).append_mark .comma (apart_memberTokens (m :: r)))

end

theorem exists_space {c : Char} (h : c ∈ [' ', '\t', '\n', '\r']) :
    ∃ b, String.utf8EncodeChar c = [b] ∧ isSpace b = true ∧
      isDigit b = false ∧ b ≠ 0x2E ∧ b ≠ 0x65 ∧ b ≠ 0x45 := by
  simp only [List.mem_cons, List.not_mem_nil, or_false] at h
  rcases h with rfl | rfl | rfl | rfl
  · exact ⟨0x20, rfl, by decide⟩
  · exact ⟨0x09, rfl, by decide⟩
  · exact ⟨0x0A, rfl, by decide⟩
  · exact ⟨0x0D, rfl, by decide⟩

theorem tokens?_gap {gap : List Char} (h : IsGap gap) (rest : List UInt8) :
    tokens? (Utf8.encode gap ++ rest) = tokens? rest := by
  induction gap with
  | nil => rfl
  | cons c gap ih =>
    obtain ⟨hc, hgap⟩ := List.forall_mem_cons.mp h
    obtain ⟨b, hb, hspace, -⟩ := exists_space hc
    rw [Utf8.encode_cons, hb, List.append_assoc, List.singleton_append, tokens?]
    simp only [hspace, if_true]
    exact ih hgap

theorem ends_gap {gap : List Char} (h : IsGap gap) {rest : List UInt8} (hr : Ends rest) :
    Ends (Utf8.encode gap ++ rest) := by
  cases gap with
  | nil => exact hr
  | cons c gap =>
    obtain ⟨b, hb, -, hends⟩ := exists_space (h c List.mem_cons_self)
    rw [Utf8.encode_cons, hb]
    rintro b' ⟨⟩
    exact hends

theorem ends_of_lays {text : List Char} {ts : List Token} (h : Lays text ts)
    (hm : ∀ t ∈ ts.head?, t.isMark = true) : Ends (Utf8.encode text) := by
  cases h with
  | nil hgap =>
    rw [← List.append_nil (Utf8.encode text)]
    exact ends_gap hgap nofun
  | @cons gap text rest t ts hgap ht _ =>
    rw [Utf8.encode_append, Utf8.encode_append]
    refine ends_gap hgap ?_
    cases ht with
    | mark m =>
      cases m
      all_goals
        rintro b ⟨⟩
        decide
    | _ => cases hm _ rfl

theorem tokens?_of_lays {text : List Char} {ts : List Token} (h : Lays text ts) (ha : Apart ts) :
    tokens? (Utf8.encode text) = some ts := by
  induction h with
  | @nil gap hgap =>
    rw [← List.append_nil (Utf8.encode gap), tokens?_gap hgap, tokens?]
  | @cons gap text rest t ts hgap ht hrest ih =>
    obtain ⟨hnext, hts⟩ := List.isChain_cons.mp ha
    have hends : t.isMark = false → Ends (Utf8.encode rest) := fun ht =>
      ends_of_lays hrest fun u hu => (hnext u hu).resolve_left (by simp [ht])
    rw [Utf8.encode_append, Utf8.encode_append, tokens?_gap hgap, (lexes_of_spells ht hends).tokens?,
      ih hts, Option.map_some]

/-- What the items above an opening bracket are gathered to, together with one that is still to be
put on the stack. -/
def HoldsItems (stack : List Token) (items : List Json) (base : List Token) : Prop :=
  ∀ v r, gatherItems r (.value v :: stack) = some (items ++ v :: r, base)

theorem HoldsItems.start (base : List Token) : HoldsItems (.mark .openBracket :: base) [] base :=
  fun _ _ => rfl

theorem HoldsItems.push {stack base : List Token} {items : List Json}
    (h : HoldsItems stack items base) (v : Json) :
    HoldsItems (.mark .comma :: .value v :: stack) (items ++ [v]) base := by
  intro w r
  rw [gatherItems, h, List.append_assoc]
  rfl

theorem HoldsItems.close {stack base : List Token} {items : List Json}
    (h : HoldsItems stack items base) (v : Json) :
    shift (.value v :: stack) (.mark .closeBracket) =
      some (.value (.arr (items ++ [v])) :: base) := by
  rw [shift, closeList, h]
  · rfl
  · rintro r ⟨⟩

/-- The same of the members above an opening brace. -/
def HoldsMembers (stack : List Token) (members : List (Literal × Json)) (base : List Token) : Prop :=
  ∀ k v r, gatherMembers r (.value v :: .mark .colon :: .value (.str k) :: stack) =
    some (members ++ (k, v) :: r, base)

theorem HoldsMembers.start (base : List Token) :
    HoldsMembers (.mark .openBrace :: base) [] base :=
  fun _ _ _ => rfl

theorem HoldsMembers.push {stack base : List Token} {members : List (Literal × Json)}
    (h : HoldsMembers stack members base) (k : Literal) (v : Json) :
    HoldsMembers (.mark .comma :: .value v :: .mark .colon :: .value (.str k) :: stack)
      (members ++ [(k, v)]) base := by
  intro k' w r
  rw [gatherMembers, h, List.append_assoc]
  rfl

theorem HoldsMembers.close {stack base : List Token} {members : List (Literal × Json)}
    (h : HoldsMembers stack members base) (k : Literal) (v : Json) :
    shift (.value v :: .mark .colon :: .value (.str k) :: stack) (.mark .closeBrace) =
      some (.value (.obj (members ++ [(k, v)])) :: base) := by
  rw [shift, closeObject, h]
  · rfl
  · rintro r ⟨⟩

theorem foldlM_shift_value (v : Json) (stack ts : List Token) :
    List.foldlM shift stack (.value v :: ts) = ts.foldlM shift (.value v :: stack) := rfl

theorem foldlM_shift_mark {m : Mark} {stack stack' : List Token}
    (h : shift stack (.mark m) = some stack') (ts : List Token) :
    List.foldlM shift stack (.mark m :: ts) = ts.foldlM shift stack' := by
  rw [List.foldlM_cons, h]
  rfl

-- By induction on the value. Inside a list or an object the stack holds what was read so far, so the
-- two other statements are about any such stack.
mutual

/-- The tokens of a value leave the value on the stack. -/
theorem foldlM_shift_tokens (v : Json) (stack ts : List Token) :
    List.foldlM shift stack (v.tokens ++ ts) = ts.foldlM shift (.value v :: stack) := by
  cases v with
  | arr items =>
    cases items with
    | nil => rfl
    | cons v r =>
      have hr := foldlM_shift_itemTokens v r (HoldsItems.start stack) ts
      rw [tokens, List.cons_append, List.append_assoc]
      exact (foldlM_shift_mark rfl _).trans hr
  | obj members =>
    cases members with
    | nil => rfl
    | cons m r =>
      obtain ⟨k, v⟩ := m
      have hr := foldlM_shift_memberTokens k v r (HoldsMembers.start stack) ts
      rw [tokens, List.cons_append, List.append_assoc]
      exact (foldlM_shift_mark rfl _).trans hr
  | _ => rfl
termination_by sizeOf v

theorem foldlM_shift_itemTokens (v : Json) (r : List Json) {stack base : List Token}
    {items : List Json} (h : HoldsItems stack items base) (ts : List Token) :
    List.foldlM shift stack (itemTokens (v :: r) ++ .mark .closeBracket :: ts) =
      ts.foldlM shift (.value (.arr (items ++ v :: r)) :: base) := by
  cases r with
  | nil =>
    rw [itemTokens, foldlM_shift_tokens v stack]
    exact foldlM_shift_mark (h.close v) ts
  | cons w r =>
    have hr := foldlM_shift_itemTokens w r (h.push v) ts
    rw [List.append_assoc] at hr
    rw [itemTokens, List.append_assoc, foldlM_shift_tokens v stack]
    exact (foldlM_shift_mark rfl _).trans hr
termination_by sizeOf v + sizeOf r

theorem foldlM_shift_memberTokens (k : Literal) (v : Json) (r : List (Literal × Json))
    {stack base : List Token} {members : List (Literal × Json)}
    (h : HoldsMembers stack members base) (ts : List Token) :
    List.foldlM shift stack (memberTokens ((k, v) :: r) ++ .mark .closeBrace :: ts) =
      ts.foldlM shift (.value (.obj (members ++ (k, v) :: r)) :: base) := by
  cases r with
  | nil =>
    rw [memberTokens, List.cons_append, List.cons_append, foldlM_shift_value]
    have hv := foldlM_shift_tokens v (.mark .colon :: .value (.str k) :: stack)
      (.mark .closeBrace :: ts)
    exact (foldlM_shift_mark rfl _).trans (hv.trans (foldlM_shift_mark (h.close k v) ts))
  | cons m r =>
    obtain ⟨l, w⟩ := m
    have hr := foldlM_shift_memberTokens l w r (h.push k v) ts
    rw [List.append_assoc] at hr
    rw [memberTokens, List.cons_append, List.cons_append, List.append_assoc, foldlM_shift_value]
    have hv := foldlM_shift_tokens v (.mark .colon :: .value (.str k) :: stack)
      (.mark .comma :: (memberTokens ((l, w) :: r) ++ .mark .closeBrace :: ts))
    exact (foldlM_shift_mark rfl _).trans (hv.trans ((foldlM_shift_mark rfl _).trans hr))
termination_by sizeOf v + sizeOf r

end

theorem ofTokens?_tokens (v : Json) : ofTokens? v.tokens = some v := by
  have hv := foldlM_shift_tokens v [] []
  rw [List.append_nil] at hv
  rw [ofTokens?, hv]
  rfl

/-- A value is read back from every text of it. -/
theorem read?_of_spells {text : List Char} {v : Json} (h : v.Spells text) :
    read? (Utf8.encode text) = some v := by
  rw [read?, tokens?_of_lays h (apart_tokens v), Option.bind_some, ofTokens?_tokens]

theorem parse?_of_spells {α : Type} {ofJson? : Json → Option α} {text : String} {v : Json}
    (h : v.Spells text.toList) : parse? ofJson? text = ofJson? v := by
  rw [parse?, Utf8.bytes, read?_of_spells h, Option.bind_some]

theorem Spells.unique {text : List Char} {v w : Json} (hv : v.Spells text) (hw : w.Spells text) :
    v = w := by
  have hread := read?_of_spells hv
  rw [read?_of_spells hw] at hread
  exact (Option.some.inj hread).symm

theorem read?_chars (v : Json) : read? (Utf8.encode v.chars) = some v :=
  read?_of_spells v.spells_chars

theorem read?_render (v : Json) : read? (Utf8.bytes v.render) = some v :=
  read?_of_spells v.spells_render

end Json
end PeerRoster
