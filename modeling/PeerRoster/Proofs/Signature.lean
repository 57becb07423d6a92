import PeerRoster.Proofs.Reading
import PeerRoster.Text.Quoted
import PeerRoster.Token

/-! A token that was signed comes apart where it was put together, and its parts are read back,
whatever texts the claims hold. It is therefore read under the secrets that give the same code, and
under no others. -/
namespace PeerRoster

namespace Base64Url

theorem sextets_lt {bs : List UInt8} : ∀ n ∈ sextets bs, n < 64 := by
  fun_induction sextets bs with
  | case1 => simp
  | case2 a =>
    have := a.toNat_lt
    simp
    omega
  | case3 a b =>
    have := a.toNat_lt
    have := b.toNat_lt
    simp
    omega
  | case4 a b c r ih =>
    have := a.toNat_lt
    have := b.toNat_lt
    have := c.toNat_lt
    simp only [List.forall_mem_cons]
    exact ⟨by omega, by omega, by omega, by omega, ih⟩

theorem ofNat_eq {n : Nat} {a : UInt8} (h : n = a.toNat) : UInt8.ofNat n = a := by
  rw [h, UInt8.ofNat_toNat]

theorem ofSextets?_sextets (bs : List UInt8) : ofSextets? (sextets bs) = some bs := by
  fun_induction sextets bs with
  | case1 => rfl
  | case2 a =>
    have := a.toNat_lt
    rw [ofSextets?, if_pos (by omega), ofNat_eq (a := a) (by omega)]
  | case3 a b =>
    have := a.toNat_lt
    have := b.toNat_lt
    rw [ofSextets?, if_pos (by omega), ofNat_eq (a := a) (by omega), ofNat_eq (a := b) (by omega)]
  | case4 a b c r ih =>
    have := a.toNat_lt
    have := b.toNat_lt
    have := c.toNat_lt
    rw [ofSextets?, ih, ofNat_eq (a := a) (by omega), ofNat_eq (a := b) (by omega),
      ofNat_eq (a := c) (by omega)]
    rfl

theorem decode?_encode (bs : List UInt8) : decode? (encode bs) = some bs := by
  have hm : (encode bs).mapM sextet? = some (sextets bs) :=
    mapM_map_eq_some fun n hn => sextet?_digit n (sextets_lt n hn)
  rw [decode?, hm, Option.bind_some, ofSextets?_sextets]

theorem digit_printable : ∀ n < 64, isBlank (digit n) = false ∧ digit n ≠ '.' ∧
    0x20 ≤ (digit n).toNat ∧ (digit n).toNat ≤ 0x7E := by
  decide

theorem encode_printable {bs : List UInt8} {c : Char} (h : c ∈ encode bs) :
    isBlank c = false ∧ c ≠ '.' ∧ 0x20 ≤ c.toNat ∧ c.toNat ≤ 0x7E := by
  obtain ⟨n, hn, rfl⟩ := List.mem_map.mp h
  exact digit_printable n (sextets_lt n hn)

theorem dot_notMem_encode (bs : List UInt8) : '.' ∉ encode bs :=
  fun h => (encode_printable h).2.1 rfl

end Base64Url

namespace Token

theorem dot_notMem_part (v : Json) : '.' ∉ part v := Base64Url.dot_notMem_encode _

theorem splitOn_sign (c : Claims) (secret : String) :
    (sign c secret).toList.splitOn '.' = [part Header.own, part c.toJson,
      Base64Url.encode (code secret (part Header.own ++ '.' :: part c.toJson))] := by
  rw [sign, String.toList_ofList, signedPart, List.append_assoc, List.cons_append,
    List.splitOn_append_cons_self_of_not_mem (dot_notMem_part _),
    List.splitOn_append_cons_self_of_not_mem (dot_notMem_part _),
    List.splitOn_eq_singleton (Base64Url.dot_notMem_encode _)]

theorem sign_printable {claims : Claims} {secret : String} {c : Char}
    (h : c ∈ (sign claims secret).toList) :
    isBlank c = false ∧ 0x20 ≤ c.toNat ∧ c.toNat ≤ 0x7E := by
  rw [sign, String.toList_ofList, signedPart] at h
  simp only [List.mem_append, List.mem_cons] at h
  have hpart : ∀ bs, c ∈ Base64Url.encode bs → isBlank c = false ∧ 0x20 ≤ c.toNat ∧ c.toNat ≤ 0x7E :=
    fun bs hb => ⟨(Base64Url.encode_printable hb).1, (Base64Url.encode_printable hb).2.2⟩
  rcases h with (h | rfl | h) | rfl | h
  · exact hpart _ h
  · decide
  · exact hpart _ h
  · decide
  · exact hpart _ h

end Token

theorem Claims.ofPayload?_toJson (c : Claims) : Claims.ofPayload? c.toJson = some c := by
  have hroles : Json.list? Json.text? (.arr (c.roles.map fun r => .str (.text r))) =
      some c.roles :=
    mapM_map_eq_some fun _ _ => rfl
  have hexpiry : Json.uint64? (.ofUInt64 c.expiry) = some c.expiry :=
    Words.uint64?_toNat c.expiry
  simp [ofPayload?, toJson, Json.record, isPassable, ofMembers?, Json.wellNamed, singular,
    Json.named, Json.required?, hroles, hexpiry, Json.text?, Json.Literal.text?]

namespace Token

theorem readPart?_part (v : Json) : readPart? (part v) = some v := by
  rw [readPart?, part, Base64Url.decode?_encode, Option.bind_some, Json.read?_chars]

theorem verify?_sign {c : Claims} {now : ℕ} (h : c.isCurrent now = true) (s₁ s₂ : String) :
    verify? (sign c s₁) s₂ now =
      if code s₁ (signedPart c) = code s₂ (signedPart c) then some c else none := by
  have hown : Header.isSupported Header.own = true := by decide
  unfold verify? guard
  rw [splitOn_sign, signedPart]
  simp only [Base64Url.decode?_encode, readPart?_part, Option.some.injEq]
  by_cases hc : code s₁ (part Header.own ++ '.' :: part c.toJson) =
      code s₂ (part Header.own ++ '.' :: part c.toJson)
  · simp [hc, hown, Claims.ofPayload?_toJson, h]
  · rw [if_neg hc, if_neg hc]
    rfl

theorem verify_sign {c : Claims} {now : ℕ} (hc : c.isCurrent now = true) {s₁ s₂ : String}
    (h : code s₁ (signedPart c) = code s₂ (signedPart c)) : verify (sign c s₁) s₂ now = .ok c := by
  rw [verify, verify?_sign hc, if_pos h]

/-- What was signed is read back under the same secret, at any time up to the end of the grace. -/
theorem verify_signed (c : Claims) (secret : String) (now : ℕ)
    (h : now ≤ c.expiry.toNat + Claims.leeway) :
    verify (sign c secret) secret now = .ok c :=
  verify_sign (decide_eq_true h) rfl

theorem verify_signed_control_characters :
    let c : Claims := ⟨"\"\\\x00\x1f\n", "\x7f\u2028😀", ["", "admin", "a.b"], 0⟩
    60 ≤ c.expiry.toNat + Claims.leeway ∧ verify (sign c "") "" 60 = .ok c := by
  intro c
  have hc : 60 ≤ c.expiry.toNat + Claims.leeway := by decide
  exact ⟨hc, verify_signed c "" 60 hc⟩

end Token

end PeerRoster
