import PeerRoster.Proofs.Record
import PeerRoster.Proofs.Signature

/-! What the tokens are that a secret accepts. Base64url is read strictly, so the third part of such
a token is fixed to the letter by the two others. -/
namespace PeerRoster

namespace Base64Url

theorem digit_of_sextet? {c : Char} {n : ℕ} (h : sextet? c = some n) : c = digit n := by
  unfold sextet? at h
  dsimp only at h
  split at h
  next hr =>
    obtain rfl := Option.some.inj h
    have hc : c.toNat - 65 + 65 = c.toNat := by omega
    rw [digit, if_pos (by omega), hc, Char.ofNat_toNat]
  split at h
  next hr =>
    obtain rfl := Option.some.inj h
    have hc : c.toNat - 71 + 71 = c.toNat := by omega
    rw [digit, if_neg (by omega), if_pos (by omega), hc, Char.ofNat_toNat]
  split at h
  next hr =>
    obtain rfl := Option.some.inj h
    have hc : c.toNat + 4 - 4 = c.toNat := by omega
    rw [digit, if_neg (by omega), if_neg (by omega), if_pos (by omega), hc, Char.ofNat_toNat]
  split at h
  next hr =>
    obtain rfl := Option.some.inj h
    exact hr
  split at h
  next hr =>
    obtain rfl := Option.some.inj h
    exact hr
  next => cases h

theorem sextets_of_ofSextets? {ns : List ℕ} {bs : List UInt8} (hlt : ∀ n ∈ ns, n < 64)
    (h : ofSextets? ns = some bs) : ns = sextets bs := by
  fun_induction ofSextets? ns generalizing bs with
  | case1 =>
    obtain rfl := Option.some.inj h
    rfl
  | case2 => cases h
  | case3 p q hq =>
    simp only [List.forall_mem_cons] at hlt
    obtain rfl := Option.some.inj h
    rw [sextets, Utf8.toNat_ofNat (by omega)]
    simp only [List.cons.injEq, and_true]
    omega
  | case4 => cases h
  | case5 p q s hs =>
    simp only [List.forall_mem_cons] at hlt
    obtain rfl := Option.some.inj h
    rw [sextets, Utf8.toNat_ofNat (by omega), Utf8.toNat_ofNat (by omega)]
    simp only [List.cons.injEq, and_true]
    omega
  | case6 => cases h
  | case7 p q s t r ih =>
    simp only [List.forall_mem_cons] at hlt
    obtain ⟨hp, hq, hs, ht, hr⟩ := hlt
    obtain ⟨bs, hbs, rfl⟩ := Option.map_eq_some_iff.mp h
    rw [sextets, Utf8.toNat_ofNat (by omega), Utf8.toNat_ofNat (by omega),
      Utf8.toNat_ofNat (by omega), ← ih hr hbs]
    simp only [List.cons.injEq, and_true]
    omega

/-- Bytes are read from no text but the one that they are written as. -/
theorem eq_encode_of_decode? {cs : List Char} {bs : List UInt8} (h : decode? cs = some bs) :
    cs = encode bs := by
  obtain ⟨ns, hns, hbs⟩ := Option.bind_eq_some_iff.mp h
  have hcs : cs = ns.map digit := eq_map_of_mapM_eq_some (fun _ _ => digit_of_sextet?) hns
  have hlt : ∀ n ∈ ns, n < 64 := by
    intro n hn
    obtain ⟨c, -, hc⟩ := exists_of_mem_mapM hns hn
    exact sextet?_lt hc
  rw [hcs, encode, ← sextets_of_ofSextets? hlt hbs]

end Base64Url

namespace Json

theorem texts?_eq_some_iff (v : Json) (l : List String) :
    list? text? v = some l ↔ v = .arr (l.map fun s => .str (.text s)) := by
  constructor
  · intro h
    cases v with
    | arr items =>
      have hitem := fun v s => (text?_eq_some_iff v s).mp
      exact congrArg Json.arr (eq_map_of_mapM_eq_some hitem h)
    | _ => cases h
  · rintro rfl
    exact mapM_map_eq_some fun _ _ => rfl

end Json

namespace Claims

/-- An object holds the claims, each in one member of its name. -/
structure HeldBy (c : Claims) (ms : Json.Members) : Prop where
  subject : Json.named "sub" ms = [.str (.text c.subject)]
  name : Json.named "name" ms = [.str (.text c.name)]
  roles : Json.named "roles" ms = [.arr (c.roles.map fun r => .str (.text r))]
  expiry : Json.named "exp" ms = [.int c.expiry.toNat]

theorem heldBy_of_ofMembers? {c : Claims} {ms : Json.Members} (h : ofMembers? ms = some c) :
    c.HeldBy ms := by
  rw [ofMembers?] at h
  split at h
  next hw =>
    simp only [Option.bind_eq_bind, Option.bind_eq_some_iff] at h
    obtain ⟨subject, hsubject, name, hname, roles, hroles, expiry, hexpiry, hc⟩ := h
    obtain rfl := Option.some.inj hc
    exact ⟨Json.named_eq_of_required? Json.text?_eq_some_iff hw (by decide) hsubject,
      Json.named_eq_of_required? Json.text?_eq_some_iff hw (by decide) hname,
      Json.named_eq_of_required? Json.texts?_eq_some_iff hw (by decide) hroles,
      Json.named_eq_of_required? Json.uint64?_eq_some_iff hw (by decide) hexpiry⟩
  next => cases h

theorem heldBy_of_ofPayload? {c : Claims} {v : Json} (h : ofPayload? v = some c) :
    ∃ ms, v = .obj ms ∧ c.HeldBy ms := by
  cases v with
  | obj ms =>
    rw [ofPayload?] at h
    split at h
    next => cases h
    next => exact ⟨ms, rfl, heldBy_of_ofMembers? h⟩
  | _ => cases h

end Claims

namespace Token

theorem eq_of_name? {v : Json} {s : String} (h : name? isNull v = some s) :
    v = .str (.text s) ∨ v = .obj [(.text s, .null)] := by
  unfold name? at h
  split at h
  next t =>
    obtain rfl := Option.some.inj h
    exact .inl rfl
  next t w =>
    split at h
    next hw =>
      obtain rfl := Option.some.inj h
      cases w with
      | null => exact .inr rfl
      | _ => cases hw
    next => cases h
  next => cases h

theorem Header.alg_of_isSupported {v : Json} (h : Header.isSupported v = true) :
    ∃ ms alg, v = .obj ms ∧ Json.named "alg" ms = [alg] ∧
      (alg = .str (.text "HS256") ∨ alg = .obj [(.text "HS256", .null)]) := by
  cases v with
  | obj ms =>
    simp only [Header.isSupported, Bool.and_eq_true] at h
    obtain ⟨⟨⟨⟨⟨hw, ha⟩, -⟩, -⟩, -⟩, -⟩ := h
    obtain ⟨s, hs, hc⟩ := (Option.any_eq_true _ _).mp ha
    obtain ⟨alg, halg, hname⟩ := Json.named_of_required? hw (by decide) hs
    obtain rfl : s = "HS256" := by simpa using hc
    exact ⟨ms, alg, rfl, halg, eq_of_name? hname⟩
  | _ => cases h

/-- The header names HS256, by a text or as the only member of an object, and the payload holds
claims that are not past. -/
structure Attests (header payload : List Char) (now : ℕ) (c : Claims) : Prop where
  algorithm : ∃ ms alg, readPart? header = some (.obj ms) ∧ Json.named "alg" ms = [alg] ∧
    (alg = .str (.text "HS256") ∨ alg = .obj [(.text "HS256", .null)])
  claims : ∃ ms, readPart? payload = some (.obj ms) ∧ c.HeldBy ms
  current : now ≤ c.expiry.toNat + Claims.leeway

theorem parts_of_verify {token secret : String} {now : ℕ} {c : Claims}
    (h : verify token secret now = .ok c) :
    ∃ header payload, token.toList.splitOn '.' =
        [header, payload, Base64Url.encode (code secret (header ++ '.' :: payload))] ∧
      Attests header payload now c := by
  have hv : verify? token secret now = some c := by
    rw [verify] at h
    split at h
    next hc => rw [hc, Except.ok.inj h]
    next => cases h
  rw [verify?] at hv
  split at hv
  next header payload signature hparts =>
    obtain ⟨hcode, hv⟩ := guard_bind_eq_some.mp hv
    obtain ⟨v, hheader, hv⟩ := Option.bind_eq_some_iff.mp hv
    obtain ⟨hsupported, hv⟩ := guard_bind_eq_some.mp hv
    obtain ⟨c', hclaims, hv⟩ := Option.bind_eq_some_iff.mp hv
    obtain ⟨hcurrent, hv⟩ := guard_bind_eq_some.mp hv
    obtain rfl := Option.some.inj hv
    obtain ⟨w, hpayload, hc'⟩ := Option.bind_eq_some_iff.mp hclaims
    obtain ⟨ms, alg, rfl, halg⟩ := Header.alg_of_isSupported hsupported
    obtain ⟨ns, rfl, hheld⟩ := Claims.heldBy_of_ofPayload? hc'
    refine ⟨header, payload, ?_, ⟨ms, alg, hheader, halg⟩, ⟨ns, hpayload, hheld⟩,
      of_decide_eq_true hcurrent⟩
    rw [hparts, Base64Url.eq_encode_of_decode? hcode]
  next => cases hv

theorem eq_of_splitOn {s t : String} (h : s.toList.splitOn '.' = t.toList.splitOn '.') : s = t := by
  have hjoin : ['.'].intercalate (s.toList.splitOn '.') = t.toList := by
    rw [h, List.intercalate_splitOn]
  rw [List.intercalate_splitOn] at hjoin
  exact String.toList_inj.mp hjoin

/-- An accepted token is the two parts that attest its claims and the code of the secret over them,
written in the one way there is. So its third part cannot be exchanged for another one, and what was
signed with one secret passes under another exactly if both give the same code. -/
theorem verify_binds :
    (∀ token secret now c, verify token secret now = .ok c →
      ∃ header payload, token.toList.splitOn '.' =
          [header, payload, Base64Url.encode (code secret (header ++ '.' :: payload))] ∧
        Attests header payload now c) ∧
    (∀ token token' secret now now' c c', verify token secret now = .ok c →
      verify token' secret now' = .ok c' →
      (token.toList.splitOn '.').take 2 = (token'.toList.splitOn '.').take 2 → token = token') ∧
    ∀ c now, now ≤ c.expiry.toNat + Claims.leeway →
      ∃ header payload,
        (∀ secret, (sign c secret).toList.splitOn '.' =
          [header, payload, Base64Url.encode (code secret (header ++ '.' :: payload))]) ∧
        ∀ s₁ s₂, (∃ c', verify (sign c s₁) s₂ now = .ok c') ↔
          code s₁ (header ++ '.' :: payload) = code s₂ (header ++ '.' :: payload) := by
  refine ⟨fun token secret now c h => parts_of_verify h, ?_, ?_⟩
  · intro token token' secret now now' c c' h h' htake
    obtain ⟨header, payload, hparts, -⟩ := parts_of_verify h
    obtain ⟨header', payload', hparts', -⟩ := parts_of_verify h'
    apply eq_of_splitOn
    simp only [hparts, hparts', List.take_succ_cons, List.take_zero, List.cons.injEq,
      and_true] at htake
    obtain ⟨rfl, rfl⟩ := htake
    rw [hparts, hparts']
  · intro c now hnow
    refine ⟨part Header.own, part c.toJson, splitOn_sign c, fun s₁ s₂ => ?_⟩
    rw [verify, verify?_sign (decide_eq_true hnow), ← signedPart]
    by_cases hc : code s₁ (signedPart c) = code s₂ (signedPart c)
    · rw [if_pos hc]
      exact ⟨fun _ => hc, fun _ => ⟨c, rfl⟩⟩
    · rw [if_neg hc]
      constructor
      · rintro ⟨c', h⟩
        cases h
      · intro h
        exact absurd h hc

/-- The name of the algorithm need not be a text: a header in which it is the member of an object is
read like one that holds the text. -/
theorem verify_binds_alg_object :
    let token := "eyJhbGciOnsiSFMyNTYiOm51bGx9fQ." ++
      "eyJzdWIiOiJAYSIsIm5hbWUiOiJBIiwicm9sZXMiOlsiYWRtaW4iXSwiZXhwIjo0MTAyNDQ0ODAwfQ." ++
      "-BA3Ix1tqV2krjQmDjGDsHCNYLlSEZkoL87_2rlBAt4"
    verify token "secret" 1767225600 = .ok ⟨"@a", "A", ["admin"], 4102444800⟩ ∧
      ¬ ∃ header payload signature ms, token.toList.splitOn '.' = [header, payload, signature] ∧
        readPart? header = some (.obj ms) ∧ Json.named "alg" ms = [.str (.text "HS256")] := by
  intro token
  have hv : verify token "secret" 1767225600 = .ok ⟨"@a", "A", ["admin"], 4102444800⟩ := by
    decide +kernel
  have hhead : (token.toList.splitOn '.').head? =
      some (part (.obj [(.text "alg", .obj [(.text "HS256", .null)])])) := by
    decide +kernel
  refine ⟨hv, ?_⟩
  rintro ⟨header, payload, signature, ms, hparts, hread, halg⟩
  rw [hparts, List.head?_cons] at hhead
  rw [Option.some.inj hhead, readPart?_part] at hread
  obtain rfl := Json.obj.inj (Option.some.inj hread)
  simp [Json.named] at halg

/-- A key is filled up with zeros before it is used, so one that ends in zeros signs alike. -/
theorem verify_binds_padded :
    let c : Claims := ⟨"ops", "Ops", ["admin"], 0⟩
    60 ≤ c.expiry.toNat + Claims.leeway ∧ verify (sign c "key") "key" 60 = .ok c ∧
      (∃ header payload, (sign c "key").toList.splitOn '.' =
          [header, payload, Base64Url.encode (code "key" (header ++ '.' :: payload))] ∧
        Attests header payload 60 c) ∧
      (∃ c', verify (sign c "key") "key\x00" 60 = .ok c') ∧
      sign c "key\x00" = sign c "key" ∧ ¬ ∃ c', verify (sign c "key") "other" 60 = .ok c' := by
  intro c
  have hc : 60 ≤ c.expiry.toNat + Claims.leeway := by decide
  have hblock : Hmac.block (Utf8.bytes "key\x00") = Hmac.block (Utf8.bytes "key") := by decide
  have hpad : ∀ signed, code "key\x00" signed = code "key" signed := by
    intro signed
    rw [code, hmac, hblock]
    rfl
  have hv : verify (sign c "key") "key" 60 = .ok c := by
    rw [verify, verify?_sign (decide_eq_true hc), if_pos rfl]
  have hpadded : verify (sign c "key\x00") "key" 60 = .ok c := by
    rw [verify, verify?_sign (decide_eq_true hc), if_pos (hpad _)]
  have hother : code "key" (signedPart c) ≠ code "other" (signedPart c) := by decide +kernel
  obtain ⟨hparts, hunique, hkeys⟩ := verify_binds
  obtain ⟨header, payload, hsign, haccept⟩ := hkeys c 60 hc
  have hsplit := (hsign "key").symm.trans (splitOn_sign c "key")
  have hsigned : header ++ '.' :: payload = signedPart c := by
    rw [List.cons.injEq, List.cons.injEq] at hsplit
    rw [hsplit.1, hsplit.2.1, signedPart]
  rw [hsigned] at haccept
  have hsame : ((sign c "key\x00").toList.splitOn '.').take 2 =
      ((sign c "key").toList.splitOn '.').take 2 := by
    rw [splitOn_sign, splitOn_sign]
    rfl
  exact ⟨hc, hv, hparts _ _ _ _ hv, (haccept "key" "key\x00").mpr (hpad _).symm,
    hunique _ _ _ _ _ _ _ hpadded hv hsame, fun h => hother ((haccept "key" "other").mp h)⟩

end Token
end PeerRoster
