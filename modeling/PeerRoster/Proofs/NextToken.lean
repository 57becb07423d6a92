import PeerRoster.Proofs.FormGrammar

/-! The token of the next page: when there is one, which number it spells, and that a form takes it
for the offset where the page ended. -/
namespace PeerRoster

namespace Numeral

theorem decimal_eq_toDigits (n : ℕ) : decimal n = Nat.toDigits 10 n := by
  unfold decimal
  fun_induction digits 10 n with
  | case1 n h => rw [Nat.toDigits_of_lt_base (by omega), List.map_singleton]
  | case2 n h ih =>
    rw [Nat.toDigits_of_base_le (by decide) (by omega), ← ih, List.map_append, List.map_singleton]

theorem toList_toString (n : ℕ) : (toString n).toList = decimal n := by
  rw [decimal_eq_toDigits]
  exact String.toList_ofList

/-- The usual decimal of a number: digits only, and no zero in front of other digits. -/
structure IsPlain (text : List Char) (n : ℕ) : Prop where
  decimal : IsDecimal text n
  head : text.head? = some '0' → text = ['0']

theorem isPlain_decimal (n : ℕ) : IsPlain (decimal n) n := by
  refine ⟨(natural?_eq_some_iff _ _).mp (natural?_decimal n), fun h => ?_⟩
  obtain ⟨d, ds, hd, hzero⟩ := digits_head n
  have hlt : d < 10 := lt_of_mem_digits (by decide) (hd ▸ List.mem_cons_self)
  have hdigit : ∀ d < 10, Nat.digitChar d = '0' → d = 0 := by decide
  rw [decimal, hd, List.map_cons, List.head?_cons, Option.some.injEq] at h
  have h0 := hdigit d hlt h
  rw [decimal, hd, hzero h0, h0]
  rfl

end Numeral

namespace Page

theorem token_eq_toString (offset : UInt64) : token offset = toString offset.toNat := by
  rw [← String.toList_inj, token, String.toList_ofList, Numeral.toList_toString]

/-- No sum of the comparison is cut short. The one in the token may be, at the largest word. -/
theorem next?_map_token (start limit total : UInt64) (returned : ℕ) :
    (next? start limit total returned).map token =
      if start.toNat + limit.toNat < total.toNat then
        some (toString (min (start.toNat + returned) 0xFFFFFFFFFFFFFFFF))
      else none := by
  rw [next?]
  by_cases h : start.toNat + limit.toNat < total.toNat
  · rw [if_pos ((Words.addSat_lt_iff _ _ _).mpr h), if_pos h, Option.map_some, token_eq_toString,
      Words.toNat_saturate]
  · rw [if_neg (mt (Words.addSat_lt_iff _ _ _).mp h), if_neg h, Option.map_none]

end Page

namespace Form

theorem reads_toString (p : Parameter) (default : Int64) {n : UInt64}
    (h : n.toNat ≤ 0x7FFFFFFFFFFFFFFF) : Reads p default (some (toString n.toNat)) n := by
  rw [← Page.token_eq_toString]
  exact reads_token p default h

theorem toQuery_offset {text : String} {n : UInt64} (h : Reads .start defaultStart (some text) n) :
    toQuery ⟨some text, none, none, none, none⟩ = .ok ⟨none, .name, .forward, some ⟨n, 100⟩⟩ :=
  (toQuery_eq_ok_iff _ _).mpr
    ⟨n, 100, .name, .forward, h, ⟨defaultLimit, rfl, rfl⟩, rfl, rfl, rfl⟩

end Form

namespace Page

/-- There is a token exactly if the window ends before the total, whatever the words are. If no more
rows were returned than asked for, the token is the plain decimal of the offset behind them; this is
below the total, not before the start, and behind the start if any row was returned. As long as the
storage can count the total, a form takes the token for this offset. -/
theorem next?_exact (start limit total : UInt64) (returned : ℕ) :
    ((∃ text, (next? start limit total returned).map token = some text) ↔
      start.toNat + limit.toNat < total.toNat) ∧
    ∀ text, (next? start limit total returned).map token = some text → returned ≤ limit.toNat →
      ∃ n : ℕ, n = start.toNat + returned ∧ text = toString n ∧ Numeral.IsPlain text.toList n ∧
        n < total.toNat ∧ start.toNat ≤ n ∧ (1 ≤ returned → start.toNat < n) ∧
        (total.toNat ≤ 0x7FFFFFFFFFFFFFFF → ∃ offset : UInt64, offset.toNat = n ∧
          Form.toQuery ⟨some text, none, none, none, none⟩ =
            .ok ⟨none, .name, .forward, some ⟨offset, 100⟩⟩) := by
  have htotal := total.toNat_lt
  rw [next?_map_token]
  by_cases hlt : start.toNat + limit.toNat < total.toNat
  case neg =>
    rw [if_neg hlt]
    exact ⟨iff_of_false nofun hlt, nofun⟩
  case pos =>
    rw [if_pos hlt]
    refine ⟨iff_of_true ⟨_, rfl⟩ hlt, ?_⟩
    rintro text htext hreturned
    -- The offset stays below the total, so it is a word and nothing is cut.
    have hsum : min (start.toNat + returned) 0xFFFFFFFFFFFFFFFF = start.toNat + returned := by omega
    rw [hsum] at htext
    obtain rfl := Option.some.inj htext
    refine ⟨_, rfl, rfl, ?_, by omega, by omega, fun _ => by omega, fun hle => ?_⟩
    · rw [Numeral.toList_toString]
      exact Numeral.isPlain_decimal _
    · have hoffset : (UInt64.ofNat (start.toNat + returned)).toNat = start.toNat + returned := by
        rw [UInt64.toNat_ofNat', Nat.mod_eq_of_lt (by omega)]
      refine ⟨_, hoffset, Form.toQuery_offset ?_⟩
      have hreads := Form.reads_toString .start Form.defaultStart
        (n := UInt64.ofNat (start.toNat + returned)) (by omega)
      rwa [hoffset] at hreads

/-- The last offset before the largest total that the storage can count, with a page of one row; and
the largest words, whose sum would be cut short to the total. -/
theorem next?_exact_limits :
    (next? 0x7FFFFFFFFFFFFFFD 1 0x7FFFFFFFFFFFFFFF 1).map token = some "9223372036854775806" ∧
    1 ≤ (1 : UInt64).toNat ∧ Numeral.IsPlain "9223372036854775806".toList 9223372036854775806 ∧
    Form.toQuery ⟨some "9223372036854775806", none, none, none, none⟩ =
      .ok ⟨none, .name, .forward, some ⟨0x7FFFFFFFFFFFFFFE, 100⟩⟩ ∧
    ¬ ∃ text, (next? 0xFFFFFFFFFFFFFFFF 0xFFFFFFFFFFFFFFFF 0xFFFFFFFFFFFFFFFF 0).map token =
      some text := by
  have htoken : (next? 0x7FFFFFFFFFFFFFFD 1 0x7FFFFFFFFFFFFFFF 1).map token =
      some "9223372036854775806" := by decide +kernel
  obtain ⟨n, rfl, -, hplain, -, -, -, hform⟩ := (next?_exact _ _ _ _).2 _ htoken (by decide)
  obtain ⟨offset, hoffset, hquery⟩ := hform (by decide)
  obtain rfl : offset = 0x7FFFFFFFFFFFFFFE := UInt64.toNat_inj.mp hoffset
  exact ⟨htoken, by decide, hplain, hquery, mt (next?_exact _ _ _ _).1.mp (by decide)⟩

end Page
end PeerRoster
