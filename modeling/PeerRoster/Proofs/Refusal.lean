import PeerRoster.Proofs.Admission
import PeerRoster.Proofs.QueryString

/-! What somebody known who is no administrator is told. The role is looked at behind the query
string: one that gives a parameter twice is reported as such, any other request is forbidden. -/
namespace PeerRoster

/-- The values that the query string of a request gives for a parameter, in order. -/
def Request.given (r : Request) (p : Parameter) : List String :=
  QueryString.values p (QueryString.pairs (Utf8.bytes r.query))

theorem QueryStringError.response_tells (p : Parameter) :
    (Response.error 400 .invalidParam (message (.duplicate p))).Tells 400 "M_INVALID_PARAM"
      ("Query deserialize error: duplicate field `" ++ p.label ++ "`") := by
  apply Response.error_tells 400 .invalidParam
  cases p <;> decide +kernel

namespace App

variable {app : App} {r : Request} {config : Config} {token : String} {claims : Claims}

theorem authenticate_of_verified (hc : app.config = some config) (hb : r.Bears token)
    (hv : Token.verify token config.secret app.now = .ok claims) :
    app.authenticate r = .ok (config, claims) :=
  (app.authenticate_eq_ok_iff r config claims).mpr ⟨hc, token, hb, hv⟩

theorem respond_of_duplicate (s : Storage) (hl : r.method = "GET" ∧ r.path = listingPath)
    (ha : app.authenticate r = .ok (config, claims)) {p : Parameter}
    (hf : Form.ofQueryString r.query = .error (.duplicate p)) :
    (app.respond s r).Tells 400 "M_INVALID_PARAM"
      ("Query deserialize error: duplicate field `" ++ p.label ++ "`") := by
  rw [respond, serve_of_authenticated hl ha, list, hf]
  exact QueryStringError.response_tells p

theorem respond_of_repeated (s : Storage) (hl : r.method = "GET" ∧ r.path = listingPath)
    (ha : app.authenticate r = .ok (config, claims)) (hp : ¬ ∀ p, (r.given p).length ≤ 1) :
    ∃ p, 2 ≤ (r.given p).length ∧ (app.respond s r).Tells 400 "M_INVALID_PARAM"
      ("Query deserialize error: duplicate field `" ++ p.label ++ "`") := by
  cases hf : Form.ofQueryString r.query with
  | ok form => exact absurd ((QueryString.exists_ofPairs_iff _).mp ⟨form, hf⟩) hp
  | error e =>
    obtain ⟨p⟩ := e
    exact ⟨p, QueryString.values_of_ofPairs_error hf, respond_of_duplicate s hl ha hf⟩

theorem respond_of_no_role (s : Storage) (hl : r.method = "GET" ∧ r.path = listingPath)
    (ha : app.authenticate r = .ok (config, claims)) (hr : app.hasRepository = true)
    (hrole : "admin" ∉ claims.roles) (hp : ∀ p, (r.given p).length ≤ 1) :
    (app.respond s r).Tells 403 "M_FORBIDDEN" "You are not a server admin" := by
  obtain ⟨form, hf⟩ := (QueryString.exists_ofPairs_iff _).mpr hp
  rw [respond, serve_of_authenticated hl ha, list_of_decoded hf hr,
    Service.prepare_of_no_role hrole]
  exact Response.error_tells 403 .forbidden (by decide)

/-- Somebody known without the role is forbidden the listing, whatever the values of the parameters
and the storage, exactly if no parameter is given twice; else such a parameter is reported. -/
theorem respond_nonadmin (s : Storage) (hl : r.method = "GET" ∧ r.path = listingPath)
    (hc : app.config = some config) (hr : app.hasRepository = true) (hb : r.Bears token)
    (hv : Token.verify token config.secret app.now = .ok claims) (hrole : "admin" ∉ claims.roles) :
    ((∀ p, (r.given p).length ≤ 1) →
      (app.respond s r).Tells 403 "M_FORBIDDEN" "You are not a server admin") ∧
    ((¬ ∀ p, (r.given p).length ≤ 1) → ∃ p, 2 ≤ (r.given p).length ∧
      (app.respond s r).Tells 400 "M_INVALID_PARAM"
        ("Query deserialize error: duplicate field `" ++ p.label ++ "`")) := by
  have ha := authenticate_of_verified hc hb hv
  exact ⟨respond_of_no_role s hl ha hr hrole, respond_of_repeated s hl ha⟩

/-- A negative offset, a percent sign that names no byte and a repeated parameter of another name
change nothing for somebody whose roles only look like the right one; a parameter that is given
twice, once with its name disguised, does. -/
theorem respond_nonadmin_malformed :
    let claims : Claims := ⟨"@a:b.org", "A", ["Admin", "admin "], 4102444800⟩
    let app : App := ⟨some ⟨"localhost", 80, "", "secret", some 0⟩, true, 1767225600⟩
    let ask : String → Request := fun query => ⟨"GET", listingPath ++ "?" ++ query,
      [("Authorization", "Bearer " ++ Token.sign claims "secret")]⟩
    let malformed := ask "%66rom=-1&limit=%ZZ&&to=1&to=2&dir"
    let repeated := ask "from=1&fr%6Fm=1"
    (app.respond .unreachable malformed).Tells 403 "M_FORBIDDEN" "You are not a server admin" ∧
    ∃ p, 2 ≤ (repeated.given p).length ∧ (app.respond .unreachable repeated).Tells 400
      "M_INVALID_PARAM" ("Query deserialize error: duplicate field `" ++ p.label ++ "`") := by
  intro claims app ask malformed repeated
  have hc : app.config = some ⟨"localhost", 80, "", "secret", some 0⟩ := rfl
  have hl : ∀ query, (ask query).method = "GET" ∧ (ask query).path = listingPath := fun _ =>
    ⟨rfl, path_of_target rfl⟩
  have hb : ∀ query, (ask query).Bears (Token.sign claims "secret") := fun _ =>
    Request.bears_of_hasFirst (Request.hasFirst_cons rfl (by decide +kernel))
      fun _ h => Token.sign_printable h
  have hv : Token.verify (Token.sign claims "secret") "secret" app.now = .ok claims :=
    Token.verify_sign (by decide) rfl
  have hrole : "admin" ∉ claims.roles := by decide
  constructor
  · have hf : Form.ofQueryString malformed.query =
      .ok ⟨some "-1", some "%ZZ", none, none, some ""⟩ := by decide +kernel
    have hgiven := (QueryString.exists_ofPairs_iff _).mp ⟨_, hf⟩
    exact (respond_nonadmin .unreachable (hl _) hc rfl (hb _) hv hrole).1 hgiven
  · have hgiven : ¬ (repeated.given .start).length ≤ 1 := by decide +kernel
    exact (respond_nonadmin .unreachable (hl _) hc rfl (hb _) hv hrole).2 fun h => hgiven (h .start)

/-- The role comes too late for a repeated parameter: somebody known who is no administrator is told
of the parameter, and not that the listing is forbidden. -/
theorem respond_nonadmin_repeated :
    let claims : Claims := ⟨"@a:b.org", "A", ["user"], 4102444800⟩
    let app : App := ⟨some ⟨"localhost", 80, "", "secret", none⟩, true, 1767225600⟩
    let r : Request := ⟨"GET", listingPath ++ "?" ++ "from=1&from=2",
      [("Authorization", "Bearer " ++ Token.sign claims "secret")]⟩
    (r.method = "GET" ∧ r.path = listingPath) ∧
    (∃ token, r.Bears token ∧ Token.verify token "secret" app.now = .ok claims) ∧
    "admin" ∉ claims.roles ∧ (app.respond .empty r).status ≠ 403 ∧
    (app.respond .empty r).Tells 400 "M_INVALID_PARAM"
      "Query deserialize error: duplicate field `from`" := by
  intro claims app r
  have hl : r.method = "GET" ∧ r.path = listingPath := ⟨rfl, path_of_target rfl⟩
  have hv : ∃ token, r.Bears token ∧ Token.verify token "secret" app.now = .ok claims :=
    Request.verified_of_sign (Request.hasFirst_cons rfl (by decide +kernel))
      (by decide)
  have ha : app.authenticate r = .ok (⟨"localhost", 80, "", "secret", none⟩, claims) :=
    (app.authenticate_eq_ok_iff r _ claims).mpr ⟨rfl, hv⟩
  have hf : Form.ofQueryString r.query = .error (.duplicate .start) := by decide +kernel
  have hrespond := respond_of_duplicate .empty hl ha hf
  refine ⟨hl, hv, by decide, ?_, hrespond⟩
  rw [hrespond]
  decide

end App
end PeerRoster
