import PeerRoster.Proofs.Quotation
import PeerRoster.Proofs.Reading
import PeerRoster.ServerName

/-! Which texts are names of servers, that a name is the text it was made of, and that what is said
of a text that is no name tells which text it was. -/
namespace PeerRoster
namespace ServerName

theorem exists_text_iff (s : String) :
    (∃ n : ServerName, n.text = s) ↔ s ≠ "" ∧ ∀ c ∈ s.toList, c.toNat ∉ whiteSpace := by
  have hblank : s.toList.any isBlank = false ↔ ∀ c ∈ s.toList, c.toNat ∉ whiteSpace := by
    simp only [List.any_eq_false, isBlank_iff]
  rw [← hblank]
  constructor
  · rintro ⟨n, rfl⟩
    exact ⟨n.ne_empty, n.not_blank⟩
  · rintro ⟨he, hb⟩
    exact ⟨⟨s, he, hb⟩, rfl⟩

theorem ofString_of_blank {s : String} (hs : s ≠ "") (hb : s.toList.any isBlank = true) :
    ofString s = .error (.invalid (whitespaceDetail s)) := by
  rw [ofString, dif_neg hs, dif_neg (by simp [hb])]

theorem eq_of_ofString_eq_error {s : String} {e : ValueError} (hs : s ≠ "")
    (h : ofString s = .error e) : e = .invalid (whitespaceDetail s) := by
  rw [ofString, dif_neg hs] at h
  split at h
  · contradiction
  · exact (Except.error.inj h).symm

theorem toList_around (a b c s : String) :
    (a ++ (b ++ s ++ c)).toList = a.toList ++ (b.toList ++ s.toList ++ c.toList) := by
  simp

theorem message_invalid (s : String) : (ValueError.invalid (whitespaceDetail s)).message.toList =
    "invalid value: ".toList ++
      ("destination ".toList ++ (quoted s).toList ++ " contains whitespace".toList) :=
  toList_around _ _ _ _

theorem message_injective :
    Function.Injective fun s => (ValueError.invalid (whitespaceDetail s)).message := by
  intro s t h
  have hlist := congrArg String.toList h
  rw [message_invalid, message_invalid] at hlist
  have hdetail := List.append_cancel_right (List.append_cancel_left hlist)
  exact quoted_injective (String.toList_inj.mp (List.append_cancel_left hdetail))

theorem shown_message (s : String) :
    ∀ c ∈ (ValueError.invalid (whitespaceDetail s)).message.toList, Shown c := by
  rw [message_invalid]
  have hkind : ∀ c ∈ "invalid value: ".toList, Shown c := shown_of_all_isPrintable rfl
  have hfront : ∀ c ∈ "destination ".toList, Shown c := shown_of_all_isPrintable rfl
  have hback : ∀ c ∈ " contains whitespace".toList, Shown c := shown_of_all_isPrintable rfl
  exact List.forall_mem_append.mpr ⟨hkind, List.forall_mem_append.mpr
    ⟨List.forall_mem_append.mpr ⟨hfront, shown_quoted s⟩, hback⟩⟩

/-- The texts that are names are those that are not empty and hold no blank. A name is kept as it is
written: as a text, as it is shown, among the stored names, made a name again, and as JSON. An empty
text is refused as empty, any other with a message on one line that no other text has. -/
theorem ofString_exact (s : String) :
    ((∃ n, ofString s = .ok n) ↔ s ≠ "" ∧ ∀ c ∈ s.toList, c.toNat ∉ whiteSpace) ∧
    (∀ n, ofString s = .ok n → n.text = s ∧ toString n = s ∧
      (n : StoredName) = StoredName.ofText s ∧ ofString n.text = .ok n ∧
      (Json.read? (Utf8.bytes n.toJson.render)).bind Json.text? = some s ∧
      Json.parse? StoredName.ofJson? n.toJson.render = some n) ∧
    (ofString s = .error .empty ↔ s = "") ∧
    ∀ e, s ≠ "" → ofString s = .error e → (∃ detail, e = .invalid detail) ∧
      (∀ c ∈ e.message.toList, ¬ IsControl c ∧ (c.toNat ∈ whiteSpace → c = ' ')) ∧
      ∀ t e', t ≠ "" → ofString t = .error e' → e'.message = e.message → t = s := by
  refine ⟨?_, fun n hn => ?_, ?_, fun e hs he => ?_⟩
  · simp only [ofString_eq_ok_iff]
    exact exists_text_iff s
  · obtain rfl := (ofString_eq_ok_iff s n).mp hn
    have hread : Json.read? (Utf8.bytes n.toJson.render) = some n.toJson := Json.read?_render _
    exact ⟨rfl, rfl, rfl, hn, by rw [hread]; rfl, by rw [Json.parse?, hread]; rfl⟩
  · constructor
    · intro h
      by_contra hs
      have he := eq_of_ofString_eq_error hs h
      contradiction
    · rintro rfl
      rfl
  · obtain rfl := eq_of_ofString_eq_error hs he
    refine ⟨⟨_, rfl⟩, shown_message s, fun t e' ht he' hm => ?_⟩
    obtain rfl := eq_of_ofString_eq_error ht he'
    exact message_injective hm

/-- A line break and the two characters of its escape are told apart in the messages, and a blank
that does not show is written by its code point. -/
theorem ofString_exact_escaped :
    let s := "\n\u0085"
    let t := "\\n\u0085"
    let e := ValueError.invalid "destination \"\\n\\u\x7b85\x7d\" contains whitespace"
    s ≠ "" ∧ t ≠ "" ∧ ofString s = .error e ∧ (∀ c ∈ e.message.toList, ¬ IsControl c) ∧
    ∃ e', ofString t = .error e' ∧ e'.message ≠ e.message := by
  intro s t e
  have hs : s ≠ "" := by decide
  have ht : t ≠ "" := by decide
  have hdetail : whitespaceDetail s = "destination \"\\n\\u\x7b85\x7d\" contains whitespace" := by
    decide +kernel
  have he : ofString s = .error e := by
    rw [ofString_of_blank hs (by decide +kernel), hdetail]
  have he' := ofString_of_blank ht (by decide +kernel)
  obtain ⟨-, hshown, hsame⟩ := (ofString_exact s).2.2.2 e hs he
  refine ⟨hs, ht, he, fun c hc => (hshown c hc).1, _, he', fun hm => ?_⟩
  have hst := hsame t _ ht he' hm
  exact absurd hst (by decide)

end ServerName
end PeerRoster
