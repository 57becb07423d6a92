import PeerRoster.Listing.Form
import PeerRoster.Proofs.Outcome
import PeerRoster.Service

/-! When a form becomes a query, and that the text of a token is a number a form accepts. -/
namespace PeerRoster

namespace Numeral

theorem digit?_digitChar {d : Nat} (h : d < 10) : digit? (Nat.digitChar d) = some d := by
  have hall : ∀ d < 10, digit? (Nat.digitChar d) = some d := by decide
  exact hall d h

theorem mapM_digit? {ds : List Nat} (h : ∀ d ∈ ds, d < 10) :
    (ds.map Nat.digitChar).mapM digit? = some ds :=
  mapM_map_eq_some fun d hd => digit?_digitChar (h d hd)

theorem natural?_decimal (n : Nat) : natural? (decimal n) = some n := by
  have hd := mapM_digit? fun d hd => lt_of_mem_digits (b := 10) (n := n) (by omega) hd
  have hne := digits_ne_nil 10 n
  simp [natural?, decimal, hd, hne]

theorem signed?_of_natural? {cs : List Char} {n : Nat} (h : natural? cs = some n) :
    signed? cs = some (n : Int) := by
  unfold signed?
  split
  · simp [natural?, digit?] at h
  · simp [natural?, digit?] at h
  · simp [h]

theorem signed?_decimal (n : Nat) : signed? (decimal n) = some (n : Int) :=
  signed?_of_natural? (natural?_decimal n)

end Numeral

namespace Form

/-- The text of a parameter, or the default in place of none, spells the count `n`. -/
def Reads (p : Parameter) (default : Int64) (text : Option String) (n : UInt64) : Prop :=
  ∃ a, integer p default text = .ok a ∧ unsigned p a = .ok n

theorem toQuery_eq_ok_iff (f : Form) (q : Query) :
    f.toQuery = .ok q ↔ ∃ start limit k d,
      Reads .start defaultStart f.start start ∧ Reads .limit defaultLimit f.limit limit ∧
      orderOf f.order = .ok k ∧ directionOf f.direction = .ok d ∧
      q = ⟨filterOf f.destination, k, d, some ⟨start, limit⟩⟩ := by
  simp only [toQuery, bind_eq_ok, Reads]
  constructor
  · rintro ⟨a, ha, b, hb, start, hs, limit, hl, k, hk, d, hd, hq⟩
    exact ⟨start, limit, k, d, ⟨a, ha, hs⟩, ⟨b, hb, hl⟩, hk, hd, (Except.ok.inj hq).symm⟩
  · rintro ⟨start, limit, k, d, ⟨a, ha, hs⟩, ⟨b, hb, hl⟩, hk, hd, rfl⟩
    exact ⟨a, ha, b, hb, start, hs, limit, hl, k, hk, d, hd, rfl⟩

theorem Reads.unique {p : Parameter} {default : Int64} {text : Option String} {m n : UInt64}
    (hm : Reads p default text m) (hn : Reads p default text n) : m = n := by
  obtain ⟨a, ha, hma⟩ := hm
  obtain ⟨b, hb, hnb⟩ := hn
  rw [ha] at hb
  obtain rfl := Except.ok.inj hb
  rw [hma] at hnb
  exact Except.ok.inj hnb

theorem unsigned_eq_ok_iff (p : Parameter) (a : Int64) (n : UInt64) :
    unsigned p a = .ok n ↔ a.toInt = n.toNat := by
  have ha := a.toInt_lt
  have hn := n.toNat_lt
  have hsign : a < 0 ↔ a.toInt < 0 := Int64.lt_iff_toInt_lt
  by_cases h : a < 0
  · rw [unsigned, if_pos h]
    refine iff_of_false nofun fun he => ?_
    have := hsign.mp h
    omega
  · have := mt hsign.mpr h
    rw [unsigned, if_neg h, Except.ok.injEq, ← UInt64.toNat_inj, UInt64.toNat_ofNat']
    omega

theorem Reads.le {p : Parameter} {default : Int64} {text : Option String} {n : UInt64}
    (h : Reads p default text n) : n.toNat ≤ 0x7FFFFFFFFFFFFFFF := by
  obtain ⟨a, -, hn⟩ := h
  have ha := a.toInt_lt
  have hv := (unsigned_eq_ok_iff p a n).mp hn
  omega

theorem reads_default_start : Reads .start defaultStart none 0 := ⟨0, rfl, rfl⟩

theorem word?_eq_some_iff (s : String) (a : Int64) :
    word? s = some a ↔ Numeral.signed? s.toList = some a.toInt := by
  rw [word?, Option.bind_eq_some_iff]
  constructor
  · rintro ⟨z, hz, ha⟩
    rw [Words.int64?] at ha
    split at ha
    case isTrue h =>
      obtain rfl := Option.some.inj ha
      rw [hz, Int64.toInt_ofInt_of_le (by omega) (by omega)]
    case isFalse => contradiction
  · intro h
    exact ⟨a.toInt, h, Words.int64?_toInt a⟩

theorem reads_some_iff (p : Parameter) (default : Int64) (s : String) (n : UInt64) :
    Reads p default (some s) n ↔
      Numeral.signed? s.toList = some (n.toNat : Int) ∧ n.toNat ≤ 0x7FFFFFFFFFFFFFFF := by
  constructor
  · intro h
    obtain ⟨a, ha, hn⟩ := id h
    refine ⟨?_, h.le⟩
    rw [integer] at ha
    split at ha
    case h_1 w hw =>
      obtain rfl := Except.ok.inj ha
      rw [← (unsigned_eq_ok_iff p w n).mp hn]
      exact (word?_eq_some_iff s w).mp hw
    case h_2 => contradiction
  · rintro ⟨hs, hle⟩
    have ht : (Int64.ofInt n.toNat).toInt = n.toNat := Int64.toInt_ofInt_of_le (by omega) (by omega)
    have hw : word? s = some (Int64.ofInt n.toNat) := by
      rw [word?_eq_some_iff, ht, hs]
    exact ⟨_, by rw [integer, hw], (unsigned_eq_ok_iff _ _ _).mpr ht⟩

/-- An offset that the storage cannot count has a token that no form accepts. -/
theorem reads_token_iff (p : Parameter) (default : Int64) (n m : UInt64) :
    Reads p default (some (Page.token n)) m ↔ n.toNat ≤ 0x7FFFFFFFFFFFFFFF ∧ m = n := by
  have hcast : ((n.toNat : Int) = m.toNat) ↔ m = n := by
    rw [← UInt64.toNat_inj]
    omega
  rw [reads_some_iff, Page.token, String.toList_ofList, Numeral.signed?_decimal, Option.some.injEq,
    hcast]
  constructor
  · rintro ⟨rfl, hle⟩
    exact ⟨hle, rfl⟩
  · rintro ⟨hle, rfl⟩
    exact ⟨rfl, hle⟩

theorem reads_token (p : Parameter) (default : Int64) {n : UInt64}
    (h : n.toNat ≤ 0x7FFFFFFFFFFFFFFF) : Reads p default (some (Page.token n)) n :=
  (reads_token_iff p default n n).mpr ⟨h, rfl⟩

end Form
end PeerRoster
