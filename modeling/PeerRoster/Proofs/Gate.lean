import PeerRoster.Proofs.Admission
import PeerRoster.Proofs.PageText

/-! The gate before the listing. It opens for a request that passes every check, over a storage that
can be read, and for no other; who asks is settled before anything else is looked at. -/
namespace PeerRoster
namespace App

/-- The listing is closed unless everything opens it: the settings and the repository are there, the
request bears a token of an administrator that verifies and asks for something, and there is a table
to read. What is given out is the page that the service answers over that table, with the rows, the
total and the token that are read back from it. Without settings or a token that verifies nothing
else is looked at. -/
theorem respond_fail_closed (app : App) (s : Storage) (r : Request) :
    ((app.respond s r).status = 200 ↔ ∃ config claims form q t,
      app.Entitles r config claims form q ∧ app.hasRepository = true ∧ s = .present t) ∧
    (∀ config claims form q t, app.Entitles r config claims form q → app.hasRepository = true →
      s = .present t → ∃ page body,
        (Storage.present t).page claims.roles form config.maxPageSize = .ok page ∧
        app.respond s r = ⟨200, some "application/json", body⟩ ∧ body = page.toJson.render ∧
        ∃ rows, Json.read? (Utf8.bytes body) = some (.obj (
            [(.text "destinations", .arr rows), (.text "total", .int page.total.toNat)] ++
              page.nextToken.toList.map fun token => (.text "next_token", .str (.text token)))) ∧
          rows.mapM Destination.ofJson? = some page.destinations) ∧
    (r.method = "GET" ∧ r.path = listingPath →
      (app.config = none → (app.respond s r).Tells 500 "M_UNKNOWN"
        "Server is not configured to verify access tokens") ∧
      ∀ config, app.config = some config →
        ((∀ token, r.Bears token → token = "") →
          (app.respond s r).Tells 401 "M_MISSING_TOKEN" "Missing access token") ∧
        ∀ token, r.Bears token → token ≠ "" →
          (∀ claims, Token.verify token config.secret app.now ≠ .ok claims) →
          (app.respond s r).Tells 401 "M_UNKNOWN_TOKEN" "Unrecognised access token") := by
  have hgrant : ∀ config claims form q t, app.Entitles r config claims form q →
      app.hasRepository = true → s = .present t → app.respond s r =
        .json 200 (Page.ofFound (windowOf config q) ((asked config q).select t)).toJson := by
    rintro config claims form q t h hr rfl
    exact serve_of_entitles h hr _
  refine ⟨⟨fun h200 => ?_, ?_⟩, ?_, fun hl => ⟨fun hc => ?_, fun config hc => ⟨fun hb => ?_, ?_⟩⟩⟩
  · rcases app.serve_cases r with ⟨config, claims, form, q, h, hr⟩ | ⟨resp, hstatus, hserve⟩
    · have hreply : app.respond s r = reply (windowOf config q) (s.list (asked config q)) :=
        serve_of_entitles h hr s.list
      cases hs : s.list (asked config q) with
      | error e =>
        rw [hreply, hs] at h200
        have h500 : 500 = 200 := h200
        contradiction
      | ok found =>
        obtain ⟨t, ht, -⟩ := (s.list_eq_ok_iff _ _).mp hs
        exact ⟨config, claims, form, q, t, h, hr, ht⟩
    · rw [respond, hserve] at h200
      omega
  · rintro ⟨config, claims, form, q, t, h, hr, hs⟩
    rw [hgrant config claims form q t h hr hs]
    rfl
  · intro config claims form q t h hr hs
    exact ⟨_, _, page_of_entitles h t, hgrant config claims form q t h hr hs, rfl,
      Page.read?_render _⟩
  · rw [respond, serve_of_unknown hl (authenticate_of_no_config hc r)]
    exact AuthError.response_tells _
  · rw [respond, serve_of_unknown hl (authenticate_of_no_token hc hb)]
    exact AuthError.response_tells _
  · intro token hb hne hv
    rw [respond, serve_of_unknown hl (authenticate_of_unverified hc hb hne hv)]
    exact AuthError.response_tells _

/-- The name of a header may be in capitals, and only the first counts; the bound is below the
limit. Without settings, without the header and with a token of two parts there is no page. -/
theorem respond_fail_closed_bounded :
    let claims : Claims := ⟨"@a:b.org", "A", ["user", "admin"], 4102444800⟩
    let app : App := ⟨some ⟨"localhost", 80, "", "secret", some 1⟩, true, 1767225600⟩
    let t : Table := [⟨"b.org", ⟨none, 5, 0⟩, some 3⟩, ⟨"a.org", ⟨some (-2), 0, 7⟩, none⟩]
    let ask : List (String × String) → Request :=
      (⟨"GET", listingPath ++ "?" ++ "limit=%2B2&to=1&to=2", ·⟩)
    (∃ body rows, app.respond (.present t) (ask [("Accept", "*/*"),
          ("AUTHORIZATION", "Bearer " ++ Token.sign claims "secret"), ("authorization", "none")]) =
        ⟨200, some "application/json", body⟩ ∧
      Json.read? (Utf8.bytes body) = some (.obj [(.text "destinations", .arr rows),
        (.text "total", .int 2), (.text "next_token", .str (.text "1"))]) ∧
      rows.mapM Destination.ofJson? = some [⟨"a.org", ⟨some (-2), 0, 7⟩, none⟩]) ∧
    ((⟨none, true, 0⟩ : App).respond (.present t) (ask [])).Tells 500 "M_UNKNOWN"
      "Server is not configured to verify access tokens" ∧
    (app.respond (.present t) (ask [])).Tells 401 "M_MISSING_TOKEN" "Missing access token" ∧
    (app.respond (.present t) (ask [("Authorization", "Bearer a.b")])).Tells 401 "M_UNKNOWN_TOKEN"
      "Unrecognised access token" := by
  intro claims app t ask
  have hl : ∀ headers, (ask headers).method = "GET" ∧ (ask headers).path = listingPath :=
    fun _ => ⟨rfl, path_of_target rfl⟩
  refine ⟨?_, ?_, ?_, ?_⟩
  · have h : app.Entitles (ask [("Accept", "*/*"),
          ("AUTHORIZATION", "Bearer " ++ Token.sign claims "secret"), ("authorization", "none")])
        ⟨"localhost", 80, "", "secret", some 1⟩ claims ⟨none, some "+2", none, none, none⟩
        ⟨none, .name, .forward, some ⟨0, 2⟩⟩ := {
      listing := hl _
      configured := rfl
      verified := Request.verified_of_sign
        ⟨[("Accept", "*/*")], "AUTHORIZATION", _, rfl, by decide +kernel, by decide +kernel⟩
        (by decide)
      administrator := by decide
      decoded := by decide +kernel
      converted := by decide +kernel }
    obtain ⟨page, body, hpage, hbody, -, rows, hread, hrows⟩ :=
      (respond_fail_closed app (.present t) _).2.1 _ _ _ _ t h rfl rfl
    have hlisting : Query.listing ⟨none, .name, .forward, none⟩ t = t.reverse :=
      Query.listing_eq _ (by decide) (by decide +kernel) (by decide +kernel)
    have hone : (Storage.present t).page claims.roles ⟨none, some "+2", none, none, none⟩ (some 1) =
        .ok ⟨[⟨"a.org", ⟨some (-2), 0, 7⟩, none⟩], 2, some "1"⟩ := by
      refine (Storage.page_eq_ok_iff _ _ _ _ _).mpr ⟨by decide, 0, 2, .name, .forward,
        Form.reads_default_start, ⟨2, by decide +kernel, by decide +kernel⟩, rfl, rfl, ?_⟩
      rw [Query.pageAt, Form.filterOf, hlisting]
      decide +kernel
    obtain rfl := Except.ok.inj (hpage.symm.trans hone)
    exact ⟨body, rows, hbody, hread, hrows⟩
  · exact ((respond_fail_closed _ _ _).2.2 (hl [])).1 rfl
  · refine (((respond_fail_closed _ _ _).2.2 (hl [])).2 _ rfl).1 ?_
    exact (Request.token?_eq_none_iff _).mp (by decide +kernel)
  · refine (((respond_fail_closed _ _ _).2.2 (hl _)).2 _ rfl).2 "a.b" ?_ (by decide) ?_
    · exact Request.bears_of_hasFirst (Request.hasFirst_cons rfl (by decide +kernel))
        (List.forall_iff_forall_mem.mp (by decide +kernel))
    · intro claims hv
      have he : Token.verify "a.b" "secret" 1767225600 = .error .unknownToken := by decide +kernel
      rw [he] at hv
      contradiction

end App
end PeerRoster
