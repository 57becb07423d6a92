import PeerRoster.Proofs.Admission

/-! What a response tells of the storage. To a request that is refused it tells nothing; to one that
passes it tells nothing but that the storage failed, if it failed. -/
namespace PeerRoster

namespace Request

theorem HasFirst.unique {r : Request} {name v w : String} (hv : r.HasFirst name v)
    (hw : r.HasFirst name w) : v = w := by
  rw [← header?_eq_some_iff] at hv hw
  exact Option.some.inj (hv.symm.trans hw)

theorem Bears.unique {r : Request} {s t : String} (hs : r.Bears s) (ht : r.Bears t) : s = t := by
  obtain ⟨v, rest, hv, -, hrest, rfl⟩ := hs
  obtain ⟨w, rest', hw, -, hrest', rfl⟩ := ht
  obtain rfl := hv.unique hw
  rw [hrest] at hrest'
  rw [List.append_cancel_left hrest']

end Request

namespace App

/-- One of the checks fails that need nothing but the settings and the request. -/
inductive Refuses (app : App) (r : Request) : Prop
  | noSettings (h : app.config = none)
  | noToken (h : ∀ token, r.Bears token → token = "")
  | unverified {config : Config} {token : String} (hc : app.config = some config)
      (hb : r.Bears token) (hv : ∀ claims, Token.verify token config.secret app.now ≠ .ok claims)
  | notAdmin {config : Config} {token : String} {claims : Claims} (hc : app.config = some config)
      (hb : r.Bears token) (hv : Token.verify token config.secret app.now = .ok claims)
      (h : "admin" ∉ claims.roles)
  | undecodable (h : ∀ form, Form.ofQueryString r.query ≠ .ok form)
  | rejected {form : Form} (hf : Form.ofQueryString r.query = .ok form)
      (h : ∀ q, form.toQuery ≠ .ok q)

theorem Refuses.not_entitles {app : App} {r : Request} (h : app.Refuses r) {config : Config}
    {claims : Claims} {form : Form} {q : Query} : ¬ app.Entitles r config claims form q := by
  intro he
  obtain ⟨token, hb, hv⟩ := he.verified
  cases h with
  | noSettings h => exact absurd (h.symm.trans he.configured) nofun
  | noToken h =>
    obtain rfl := h token hb
    rw [Token.verify_empty] at hv
    contradiction
  | unverified hc hb' hv' =>
    obtain rfl := Option.some.inj (hc.symm.trans he.configured)
    obtain rfl := hb'.unique hb
    exact hv' claims hv
  | notAdmin hc hb' hv' h =>
    obtain rfl := Option.some.inj (hc.symm.trans he.configured)
    obtain rfl := hb'.unique hb
    obtain rfl := Except.ok.inj (hv'.symm.trans hv)
    exact h he.administrator
  | undecodable h => exact h form he.decoded
  | rejected hf h =>
    obtain rfl := Except.ok.inj (hf.symm.trans he.decoded)
    exact h q he.converted

theorem Refuses.serve_eq {app : App} {r : Request} (h : app.Refuses r)
    (read read' : Query → Except StoreError Found) : app.serve read r = app.serve read' r := by
  rcases app.serve_cases r with ⟨config, claims, form, q, he, -⟩ | ⟨resp, -, hserve⟩
  · exact absurd he h.not_entitles
  · rw [hserve, hserve]

theorem reply_error (w : Window) (e : StoreError) :
    (reply w (.error e)).Tells 500 "M_UNKNOWN" "Internal server error" :=
  Response.error_tells 500 .unknown (by decide)

theorem Entitles.serve_eq {app : App} {r : Request} {config : Config} {claims : Claims}
    {form : Form} {q : Query} (h : app.Entitles r config claims form q)
    {read read' : Query → Except StoreError Found} {e e' : StoreError}
    (hread : read (asked config q) = .error e) (hread' : read' (asked config q) = .error e') :
    app.serve read r = app.serve read' r := by
  rcases app.serve_cases r with ⟨-, -, -, -, -, hr⟩ | ⟨resp, -, hserve⟩
  · rw [serve_of_entitles h hr, serve_of_entitles h hr, hread, hread']
    rfl
  · rw [hserve, hserve]

theorem Entitles.serve_tells {app : App} {r : Request} {config : Config} {claims : Claims}
    {form : Form} {q : Query} (h : app.Entitles r config claims form q)
    (hr : app.hasRepository = true) {read : Query → Except StoreError Found} {e : StoreError}
    (hread : read (asked config q) = .error e) :
    (app.serve read r).Tells 500 "M_UNKNOWN" "Internal server error" := by
  rw [serve_of_entitles h hr, hread]
  exact reply_error _ e

end App

theorem Storage.exists_error {s : Storage} (h : ∀ t, s ≠ .present t) (q : Query) :
    ∃ e, s.list q = .error e := by
  cases s with
  | present t => exact absurd rfl (h t)
  | dropped => exact ⟨_, rfl⟩
  | unreachable => exact ⟨_, rfl⟩

namespace App

/-- Responses do not interfere with the storage. A request that is refused has the same response
over any two storages; one that passes has the same response over any two repositories that fail at
its query, whatever their errors, and over any two storages without a table. The response to a
failure is one fixed text. -/
theorem respond_noninterference (app : App) (r : Request) :
    (app.Refuses r → ∀ s s' : Storage, app.respond s r = app.respond s' r) ∧
    ∀ config claims form q, app.Entitles r config claims form q →
      (∀ (read read' : Query → Except StoreError Found) (e e' : StoreError),
        read (asked config q) = .error e → read' (asked config q) = .error e' →
        app.serve read r = app.serve read' r ∧
        (app.hasRepository = true →
          (app.serve read r).Tells 500 "M_UNKNOWN" "Internal server error")) ∧
      ∀ s s' : Storage, (∀ t, s ≠ .present t) → (∀ t, s' ≠ .present t) →
        app.respond s r = app.respond s' r ∧
        (app.hasRepository = true →
          (app.respond s r).Tells 500 "M_UNKNOWN" "Internal server error") := by
  refine ⟨fun h s s' => h.serve_eq s.list s'.list, fun config claims form q h => ⟨?_, ?_⟩⟩
  · intro read read' e e' hread hread'
    exact ⟨h.serve_eq hread hread', fun hr => h.serve_tells hr hread⟩
  · intro s s' hs hs'
    obtain ⟨e, he⟩ := Storage.exists_error hs (asked config q)
    obtain ⟨e', he'⟩ := Storage.exists_error hs' (asked config q)
    exact ⟨h.serve_eq he he', fun hr => h.serve_tells hr he⟩

/-- A negative offset is refused alike over a row and over no connection; to a request that passes
two failures that have nothing in common look the same. -/
theorem respond_noninterference_failures :
    let claims : Claims := ⟨"@a:b.org", "A", ["admin"], 4102444800⟩
    let app : App := ⟨some ⟨"localhost", 80, "", "secret", none⟩, true, 1767225600⟩
    let ask : String → Request := fun query => ⟨"GET", listingPath ++ "?" ++ query,
      [("Authorization", "Bearer " ++ Token.sign claims "secret")]⟩
    let bad := ask "from=-1"
    let good := ask "dir=b"
    app.respond (.present [⟨"b.org", ⟨none, 5, 0⟩, some 3⟩]) bad = app.respond .unreachable bad ∧
    app.serve (fun _ => .error (.connection "no route to 10.0.0.7")) good =
      app.serve (fun _ => .error (.database "disk image is malformed")) good ∧
    app.respond .dropped good = app.respond .unreachable good ∧
    (app.respond .dropped good).Tells 500 "M_UNKNOWN" "Internal server error" := by
  intro claims app ask bad good
  have hform : Form.ofQueryString bad.query = .ok ⟨some "-1", none, none, none, none⟩ := by
    decide +kernel
  have hbad : app.Refuses bad := by
    refine .rejected hform fun q h => ?_
    have he : (⟨some "-1", none, none, none, none⟩ : Form).toQuery =
      .error (.notPositive .start) := by decide +kernel
    exact absurd (he.symm.trans h) nofun
  have hgood : app.Entitles good ⟨"localhost", 80, "", "secret", none⟩ claims
      ⟨none, none, none, none, some "b"⟩ ⟨none, .name, .backward, some ⟨0, 100⟩⟩ := {
    listing := ⟨rfl, path_of_target rfl⟩
    configured := rfl
    verified := Request.verified_of_sign
      (Request.hasFirst_cons rfl (by decide +kernel)) (by decide)
    administrator := by decide
    decoded := by decide +kernel
    converted := by decide +kernel }
  have hserve := ((respond_noninterference app good).2 _ _ _ _ hgood).1
    (fun _ => .error (.connection "no route to 10.0.0.7"))
    (fun _ => .error (.database "disk image is malformed")) _ _ rfl rfl
  have hrespond := ((respond_noninterference app good).2 _ _ _ _ hgood).2 .dropped .unreachable
    nofun nofun
  exact ⟨(respond_noninterference app bad).1 hbad _ _, hserve.1, hrespond.1, hrespond.2 rfl⟩

end App
end PeerRoster
