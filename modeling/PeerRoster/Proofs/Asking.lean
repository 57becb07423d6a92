import PeerRoster.Proofs.NextToken
import PeerRoster.Proofs.Page

/-! What the service asks of a reader, and what it makes of the answer: one query for an
administrator whose form can be read, none for anybody else. A bound on pages is the same as a lower
limit in the form. -/
namespace PeerRoster

namespace Page

theorem nextToken_ofFound (w : Window) (found : Found) :
    (ofFound w found).nextToken =
      if w.start.toNat + w.limit.toNat < found.total.toNat then
        some (toString (min (w.start.toNat + found.rows.length) 0xFFFFFFFFFFFFFFFF))
      else none :=
  next?_map_token w.start w.limit found.total found.rows.length

end Page

namespace Form

theorem toQuery_limit {form : Form} {text : Option String} {limit n : UInt64}
    (h : Reads .limit defaultLimit form.limit limit) (hn : Reads .limit defaultLimit text n) :
    toQuery { form with limit := text } =
      form.toQuery.map fun q => { q with window := q.window.map ({ · with limit := n }) } := by
  obtain ⟨a, ha, hlimit⟩ := h
  obtain ⟨b, hb, hn⟩ := hn
  simp only [toQuery, ha, hb]
  cases integer .start defaultStart form.start with
  | error e => rfl
  | ok s =>
    simp only [bind, Except.bind, hlimit, hn]
    cases unsigned .start s with
    | error e => rfl
    | ok start =>
      cases orderOf form.order with
      | error e => rfl
      | ok k => cases directionOf form.direction <;> rfl

end Form

namespace Service

theorem exists_bounded (cap : Option UInt64) (w : Window) :
    ∃ n : UInt64, n.toNat = size w.limit cap ∧ bounded cap w = ⟨w.start, n⟩ := by
  obtain ⟨hstart, hlimit⟩ := bounded_eq cap w
  exact ⟨(bounded cap w).limit, hlimit, by rw [← hstart]⟩

theorem prepare_of_form_error {roles : List String} {form : Form} {e : FormError}
    (h : adminRole ∈ roles) (he : form.toQuery = .error e) (cap : Option UInt64) :
    prepare roles form cap = .error (.form e) := by
  rw [prepare, (ensureRole_eq_ok_iff _ _).mpr h, he]
  rfl

/-- A bound has the effect that a lower limit in the form would have, whoever asks and whether or
not the rest of the form can be read. -/
theorem prepare_bound (roles : List String) {form : Form} {limit : UInt64}
    (h : Form.Reads .limit Form.defaultLimit form.limit limit) (c : UInt64) :
    prepare roles form (some c) =
      prepare roles { form with limit := some (toString (min limit.toNat c.toNat)) } none := by
  let n := (bounded (some c) ⟨0, limit⟩).limit
  have hn : n.toNat = min limit.toNat c.toNat := (bounded_eq (some c) ⟨0, limit⟩).2
  have hread :
      Form.Reads .limit Form.defaultLimit (some (toString (min limit.toNat c.toNat))) n := by
    rw [← hn]
    exact Form.reads_toString _ _ (hn ▸ (min_le_left _ _).trans h.le)
  have hquery := Form.toQuery_limit h hread
  by_cases hrole : adminRole ∈ roles
  case neg => rw [prepare_of_no_role hrole, prepare_of_no_role hrole]
  cases hq : form.toQuery with
  | error e =>
    rw [hq] at hquery
    rw [prepare_of_form_error hrole hq, prepare_of_form_error hrole hquery]
  | ok q =>
    obtain ⟨start, limit', k, d, -, hlimit, -, -, rfl⟩ := (Form.toQuery_eq_ok_iff _ _).mp hq
    obtain rfl := h.unique hlimit
    rw [hq] at hquery
    rw [(prepare_eq_ok_iff _ _ _ _).mpr ⟨hrole, _, hq, rfl⟩,
      (prepare_eq_ok_iff _ _ _ _).mpr ⟨hrole, _, hquery, rfl⟩]
    rfl

/-- A reader that keeps the queries it is asked, in order, and answers by `read`. -/
def recording (read : Query → Except StoreError Found) (q : Query) :
    StateM (List Query) (Except StoreError Found) := do
  modify (· ++ [q])
  return read q

section

variable (read : Query → Except StoreError Found) {roles : List String} {form : Form}
  {cap : Option UInt64} (log : List Query)

theorem list_recording_of_error {e : ServiceError} (h : prepare roles form cap = .error e) :
    (list (recording read) roles form cap).run log = (.error e, log) := by
  rw [list, h]
  rfl

theorem list_recording_of_ok {w : Window} {q : Query} (h : prepare roles form cap = .ok (w, q)) :
    (list (recording read) roles form cap).run log = (answer w (read q), log ++ [q]) := by
  rw [list, h]
  rfl

end

/-- The service over any reader. It asks nothing for anybody who is no administrator or whose form
cannot be read, the role being looked at first. Otherwise it asks once, the query of the form with
at most the bound as its limit. An error of the reader is passed on; so are the total and the rows,
and beside them there is a token exactly if the window asked for ends before the total. -/
theorem list_asks (read : Query → Except StoreError Found) (roles : List String) (form : Form)
    (cap : Option UInt64) (log : List Query) :
    (adminRole ∉ roles →
      (list (recording read) roles form cap).run log = (.error .forbidden, log)) ∧
    (adminRole ∈ roles →
      (∀ e, form.toQuery = .error e →
        (list (recording read) roles form cap).run log = (.error (.form e), log)) ∧
      ∀ q, form.toQuery = .ok q → ∃ w asked limit, q.window = some w ∧
        limit.toNat = size w.limit cap ∧ asked = { q with window := some ⟨w.start, limit⟩ } ∧
        (∀ e, read asked = .error e →
          (list (recording read) roles form cap).run log = (.error (.store e), log ++ [asked])) ∧
        ∀ found, read asked = .ok found →
          (list (recording read) roles form cap).run log = (.ok ⟨found.rows, found.total,
            if w.start.toNat + limit.toNat < found.total.toNat then
              some (toString (min (w.start.toNat + found.rows.length) 0xFFFFFFFFFFFFFFFF))
            else none⟩, log ++ [asked])) ∧
    ∀ c limit, cap = some c → Form.Reads .limit Form.defaultLimit form.limit limit →
      (list (recording read) roles form cap).run log =
        (list (recording read) roles
          { form with limit := some (toString (min limit.toNat c.toNat)) } none).run log := by
  refine ⟨fun hrole => ?_, fun hrole => ⟨fun e he => ?_, fun q hq => ?_⟩, ?_⟩
  · exact list_recording_of_error read log (prepare_of_no_role hrole form cap)
  · exact list_recording_of_error read log (prepare_of_form_error hrole he cap)
  · obtain ⟨start, limit, k, d, -, -, -, -, rfl⟩ := (Form.toQuery_eq_ok_iff _ _).mp hq
    obtain ⟨n, hn, hb⟩ := exists_bounded cap ⟨start, limit⟩
    have hp := (prepare_eq_ok_iff roles form cap _).mpr ⟨hrole, _, hq, rfl⟩
    simp only [Option.getD_some, hb] at hp
    have hrun := list_recording_of_ok read log hp
    refine ⟨⟨start, limit⟩, _, n, rfl, hn, rfl, fun e he => ?_, fun found hfound => ?_⟩
    · rw [hrun, he]
      rfl
    · have htoken := Page.nextToken_ofFound ⟨start, n⟩ found
      rw [hrun, hfound, ← htoken]
      rfl
  · rintro c limit rfl hlimit
    rw [list, list, prepare_bound roles hlimit c]

/-- A reader that gives more rows than it is asked for, of nearly as many as a word can count, from
the largest offset that a form can name; the bound is below the limit. -/
theorem list_asks_overfull :
    let row : Destination := ⟨"a.org", ⟨none, 5, 0⟩, some 3⟩
    let read : Query → Except StoreError Found := fun q =>
      if q.filter = none then .ok ⟨0xFFFFFFFFFFFFFFFF, [row, row, row]⟩
      else .error (.connection "gone")
    let form : Form := ⟨some "9223372036854775807", some "+7", none, none, some "b"⟩
    let asked : Query := ⟨none, .name, .backward, some ⟨0x7FFFFFFFFFFFFFFF, 2⟩⟩
    (list (recording read) ["user"] { form with order := some "" } (some 2)).run [] =
      (.error .forbidden, []) ∧
    (list (recording read) ["user", "admin"] { form with direction := some "" } (some 2)).run [] =
      (.error (.form (.unrecognizedValue "Query parameter \"dir\" must be one of [f, b]")), []) ∧
    (list (recording read) ["user", "admin"] { form with destination := some "b" } (some 2)).run [] =
      (.error (.store (.connection "gone")), [{ asked with filter := some "b" }]) ∧
    (list (recording read) ["user", "admin"] form (some 2)).run [] =
      (.ok ⟨[row, row, row], 0xFFFFFFFFFFFFFFFF, some "9223372036854775810"⟩, [asked]) ∧
    (list (recording read) ["user", "admin"] { form with limit := some "2" } none).run [] =
      (.ok ⟨[row, row, row], 0xFFFFFFFFFFFFFFFF, some "9223372036854775810"⟩, [asked]) := by
  intro row read form asked
  have hroles : adminRole ∈ ["user", "admin"] := by decide
  have hasked : (list (recording read) ["user", "admin"] form (some 2)).run [] =
      (.ok ⟨[row, row, row], 0xFFFFFFFFFFFFFFFF, some "9223372036854775810"⟩, [asked]) := by
    obtain ⟨w, a, n, hw, hn, rfl, -, hok⟩ := ((list_asks read _ form (some 2) []).2.1 hroles).2
      { asked with window := some ⟨0x7FFFFFFFFFFFFFFF, 7⟩ } (by decide +kernel)
    obtain rfl := Option.some.inj hw
    obtain rfl : n = 2 := UInt64.toNat_inj.mp hn
    have htext : toString (min (9223372036854775807 + 3) 0xFFFFFFFFFFFFFFFF) =
        "9223372036854775810" := by decide +kernel
    rw [hok _ rfl, if_pos (by decide), ← htext]
    rfl
  refine ⟨?_, ?_, ?_, hasked, ?_⟩
  · exact (list_asks read _ _ _ _).1 (by decide)
  · exact ((list_asks read _ _ _ _).2.1 hroles).1 _ (by decide +kernel)
  · obtain ⟨w, a, n, hw, hn, rfl, herror, -⟩ := ((list_asks read ["user", "admin"]
      { form with destination := some "b" } (some 2) []).2.1 hroles).2
      { asked with filter := some "b", window := some ⟨0x7FFFFFFFFFFFFFFF, 7⟩ } (by decide +kernel)
    obtain rfl := Option.some.inj hw
    obtain rfl : n = 2 := UInt64.toNat_inj.mp hn
    exact herror _ rfl
  · have hlimit : Form.Reads .limit Form.defaultLimit form.limit 7 :=
      ⟨7, by decide +kernel, by decide +kernel⟩
    rw [← hasked, (list_asks read _ form (some 2) []).2.2 2 7 rfl hlimit]
    rfl

end Service
end PeerRoster
