import Mathlib.Data.List.Basic
import PeerRoster.Proofs.Page
import PeerRoster.Proofs.Signature
import PeerRoster.Server

/-! What a request is checked for before any row is read, and what its response is by then. A
request passes, and the repository is asked one query, or its response is fixed without asking. -/
namespace PeerRoster

namespace Request

/-- The first header of a name, whatever the case of its letters, has this value. -/
def HasFirst (r : Request) (name value : String) : Prop :=
  ∃ before key after, r.headers = before ++ (key, value) :: after ∧ key.toLower = name ∧
    ∀ h ∈ before, h.1.toLower ≠ name

theorem header?_eq_some_iff (r : Request) (name value : String) :
    r.header? name = some value ↔ r.HasFirst name value := by
  unfold header? HasFirst
  rw [Option.map_eq_some_iff]
  constructor
  · rintro ⟨⟨key, v⟩, hf, rfl⟩
    obtain ⟨hkey, before, after, hr, hb⟩ := List.find?_eq_some_iff_append.mp hf
    exact ⟨before, key, after, hr, by simpa using hkey, fun h hh => by simpa using hb h hh⟩
  · rintro ⟨before, key, after, hr, hkey, hb⟩
    refine ⟨(key, value), List.find?_eq_some_iff_append.mpr ⟨by simpa using hkey, ?_⟩, rfl⟩
    exact ⟨before, after, hr, fun h hh => by simpa using hb h hh⟩

theorem hasFirst_cons {r : Request} {name key value : String} {rest : List (String × String)}
    (hr : r.headers = (key, value) :: rest) (hkey : key.toLower = name) : r.HasFirst name value :=
  ⟨[], key, rest, hr, hkey, by simp⟩

/-- The first authorization header is visible text that names the scheme, and this is the rest of
it without the blanks at its ends. -/
def Bears (r : Request) (token : String) : Prop :=
  ∃ value rest, r.HasFirst "authorization" value ∧
    (∀ c ∈ value.toList, c = '\t' ∨ 0x20 ≤ c.toNat ∧ c.toNat ≤ 0x7E) ∧
    value.toList = "Bearer ".toList ++ rest ∧ token = String.ofList (trim rest)

theorem isVisible_iff (c : Char) :
    isVisible c = true ↔ c = '\t' ∨ 0x20 ≤ c.toNat ∧ c.toNat ≤ 0x7E := by
  simp [isVisible, or_comm]

theorem bearer?_eq_some_iff (value token : String) :
    bearer? value = some token ↔ (∀ c ∈ value.toList, isVisible c = true) ∧
      (∃ rest, value.toList = "Bearer ".toList ++ rest ∧ token = String.ofList (trim rest)) ∧
      token ≠ "" := by
  have hs : scheme = "Bearer ".toList := rfl
  have he : ∀ cs : List Char, String.ofList cs ≠ "" ↔ cs ≠ [] := fun cs => by
    rw [ne_eq, ne_eq, ← String.toList_inj, String.toList_ofList]
    rfl
  simp only [bearer?, Option.ite_none_right_eq_some, Bool.and_eq_true, List.all_eq_true,
    List.isPrefixOf_iff_prefix, Bool.not_eq_true', List.isEmpty_eq_false_iff, Option.some_inj, hs]
  constructor
  · rintro ⟨⟨⟨hv, rest, hr⟩, hne⟩, rfl⟩
    rw [← hr, List.drop_left] at hne ⊢
    exact ⟨by rwa [hr], ⟨rest, rfl, rfl⟩, (he _).mpr hne⟩
  · rintro ⟨hv, ⟨rest, hr, rfl⟩, hne⟩
    refine ⟨⟨⟨hv, rest, hr.symm⟩, ?_⟩, ?_⟩
    · rw [hr, List.drop_left]
      exact (he _).mp hne
    · rw [hr, List.drop_left]

theorem token?_eq_some_iff (r : Request) (token : String) :
    r.token? = some token ↔ r.Bears token ∧ token ≠ "" := by
  simp only [token?, Option.bind_eq_some_iff, header?_eq_some_iff, bearer?_eq_some_iff,
    isVisible_iff]
  constructor
  · rintro ⟨value, hf, hv, ⟨rest, hr, ht⟩, hne⟩
    exact ⟨⟨value, rest, hf, hv, hr, ht⟩, hne⟩
  · rintro ⟨⟨value, rest, hf, hv, hr, ht⟩, hne⟩
    exact ⟨value, hf, hv, ⟨rest, hr, ht⟩, hne⟩

theorem token?_eq_none_iff (r : Request) :
    r.token? = none ↔ ∀ token, r.Bears token → token = "" := by
  simp only [Option.eq_none_iff_forall_ne_some, ne_eq, token?_eq_some_iff, not_and, not_not]

theorem trim_of_no_blanks {cs : List Char} (h : ∀ c ∈ cs, isBlank c = false) : trim cs = cs := by
  have hd : ∀ ds : List Char, (∀ c ∈ ds, isBlank c = false) → ds.dropWhile isBlank = ds := by
    intro ds hds
    cases ds with
    | nil => rfl
    | cons c ds => rw [List.dropWhile_cons_of_neg (by simp [hds c (by simp)])]
  rw [trim, hd cs h, hd cs.reverse (by simpa using h), List.reverse_reverse]

theorem bears_of_hasFirst {r : Request} {token : String}
    (hf : r.HasFirst "authorization" ("Bearer " ++ token))
    (ht : ∀ c ∈ token.toList, isBlank c = false ∧ 0x20 ≤ c.toNat ∧ c.toNat ≤ 0x7E) :
    r.Bears token := by
  refine ⟨_, token.toList, hf, ?_, String.toList_append, ?_⟩
  · rw [String.toList_append, List.forall_mem_append]
    exact ⟨List.forall_iff_forall_mem.mp (by decide), fun c hc => .inr (ht c hc).2⟩
  · rw [trim_of_no_blanks fun c hc => (ht c hc).1, String.ofList_toList]

end Request

namespace Response

/-- An error in the form that clients read: a code and a message that needs no escapes. -/
def Tells (resp : Response) (status : ℕ) (code message : String) : Prop :=
  resp = ⟨status, some "application/json", "\x7b\"errcode\":\"" ++ code ++ "\",\"error\":\"" ++
    message ++ "\"\x7d"⟩

theorem error_tells (status : ℕ) (code : ErrorCode) {message : String}
    (h : message.toList.flatMap Json.escape = message.toList) :
    (error status code message).Tells status code.label message := by
  have hl : code.label.toList.flatMap Json.escape = code.label.toList := by
    cases code <;> decide
  unfold Tells
  simp only [error, json, ErrorCode.body, Json.render, Json.record, List.map, Json.chars,
    Json.memberChars, Json.spell, h, hl, mk.injEq, true_and]
  rw [← String.toList_inj]
  simp only [String.toList_ofList, String.toList_append, List.append_assoc, List.cons_append]
  rfl

end Response

namespace AuthError

theorem response_tells (e : AuthError) : e.response.Tells e.status e.code.label e.message := by
  apply Response.error_tells
  cases e <;> decide

theorem response_status (e : AuthError) : 400 ≤ e.response.status := by
  cases e <;> decide

end AuthError

namespace ServiceError

theorem response_status (e : ServiceError) : 400 ≤ e.response.status := by
  cases e with
  | forbidden => decide
  | form cause => cases cause <;> exact le_refl 400
  | store cause => exact Nat.le_add_right 400 100

end ServiceError

namespace Service

theorem list_eq_bind (read : Query → Except StoreError Found) (roles : List String) (form : Form)
    (cap : Option UInt64) :
    list (m := Id) read roles form cap =
      prepare roles form cap >>= fun r => answer r.1 (read r.2) := by
  unfold list
  cases prepare roles form cap <;> rfl

end Service

theorem Request.verified_of_sign {r : Request} {claims : Claims} {secret : String} {now : ℕ}
    (hf : r.HasFirst "authorization" ("Bearer " ++ Token.sign claims secret))
    (hc : claims.isCurrent now = true) :
    ∃ token, r.Bears token ∧ Token.verify token secret now = .ok claims :=
  ⟨_, bears_of_hasFirst hf fun _ h => Token.sign_printable h, Token.verify_sign hc rfl⟩

theorem Token.verify_empty (secret : String) (now : ℕ) :
    Token.verify "" secret now = .error .unknownToken := by
  rfl

theorem Token.verify_eq_error {token secret : String} {now : ℕ}
    (h : ∀ claims, Token.verify token secret now ≠ .ok claims) :
    Token.verify token secret now = .error .unknownToken := by
  unfold Token.verify at h ⊢
  split
  next claims hv =>
    rw [hv] at h
    exact absurd rfl (h claims)
  next => rfl

namespace App

theorem path_of_target {r : Request} {query : String}
    (h : r.target = listingPath ++ "?" ++ query) : r.path = listingPath := by
  have ht : r.target.toList = listingPath.toList ++ '?' :: query.toList := by
    rw [h, String.toList_append, String.toList_append, List.append_assoc]
    rfl
  have hhead : (listingPath.toList ++ '?' :: query.toList).head? = some '/' := rfl
  have hfragment : ∀ c ∈ listingPath.toList, (c != '#') = true :=
    List.forall_iff_forall_mem.mp (by decide +kernel)
  have hquery : ∀ c ∈ listingPath.toList, (c != '?') = true :=
    List.forall_iff_forall_mem.mp (by decide +kernel)
  have hp : (Target.withoutFragment r.target.toList).takeWhile (· != '?') =
      listingPath.toList := by
    rw [ht, Target.withoutFragment, Target.resource, if_pos hhead,
      List.takeWhile_append_of_pos hfragment, List.takeWhile_cons_of_pos (by decide),
      List.takeWhile_append_of_pos hquery, List.takeWhile_cons_of_neg (by decide), List.append_nil]
  rw [Request.path, Target.path, hp]
  decide +kernel

theorem authenticate_eq_ok_iff (app : App) (r : Request) (config : Config) (claims : Claims) :
    app.authenticate r = .ok (config, claims) ↔ app.config = some config ∧
      ∃ token, r.Bears token ∧ Token.verify token config.secret app.now = .ok claims := by
  have hb : ∀ token, r.token? = some token ∧ Token.verify token config.secret app.now = .ok claims ↔
      r.Bears token ∧ Token.verify token config.secret app.now = .ok claims := by
    intro token
    rw [Request.token?_eq_some_iff, and_assoc]
    refine and_congr_right fun _ => and_iff_right_of_imp ?_
    rintro hv rfl
    rw [Token.verify_empty] at hv
    contradiction
  simp only [← hb]
  unfold authenticate
  cases hc : app.config with
  | none => simp
  | some c =>
    cases ht : r.token? with
    | none => simp
    | some token =>
      simp only [map_eq_ok, Prod.mk.injEq, Option.some_inj]
      constructor
      · rintro ⟨_, hv, rfl, rfl⟩
        exact ⟨rfl, token, rfl, hv⟩
      · rintro ⟨rfl, _, rfl, hv⟩
        exact ⟨claims, hv, rfl, rfl⟩

theorem authenticate_of_no_config {app : App} (h : app.config = none) (r : Request) :
    app.authenticate r = .error .missingConfig := by
  rw [authenticate, h]

theorem authenticate_of_no_token {app : App} {r : Request} {config : Config}
    (hc : app.config = some config) (hb : ∀ token, r.Bears token → token = "") :
    app.authenticate r = .error .missingToken := by
  simp only [authenticate, hc, r.token?_eq_none_iff.mpr hb]

theorem authenticate_of_unverified {app : App} {r : Request} {config : Config} {token : String}
    (hc : app.config = some config) (hb : r.Bears token) (hne : token ≠ "")
    (hv : ∀ claims, Token.verify token config.secret app.now ≠ .ok claims) :
    app.authenticate r = .error .unknownToken := by
  have ht : r.token? = some token := (r.token?_eq_some_iff token).mpr ⟨hb, hne⟩
  simp only [authenticate, hc, ht, Token.verify_eq_error hv]
  rfl

/-- What is checked of a listing request on its own: that it is one, that it bears a token that the
settings let verify, whose claims hold the role, and that its query string is a form that asks for
something. -/
structure Entitles (app : App) (r : Request) (config : Config) (claims : Claims) (form : Form)
    (q : Query) : Prop where
  listing : r.method = "GET" ∧ r.path = listingPath
  configured : app.config = some config
  verified : ∃ token, r.Bears token ∧ Token.verify token config.secret app.now = .ok claims
  administrator : "admin" ∈ claims.roles
  decoded : Form.ofQueryString r.query = .ok form
  converted : form.toQuery = .ok q

/-- The window that the repository is asked for. -/
def windowOf (config : Config) (q : Query) : Window :=
  Service.bounded config.maxPageSize (q.window.getD Service.wholeWindow)

/-- The query that the repository is asked. -/
def asked (config : Config) (q : Query) : Query := { q with window := some (windowOf config q) }

/-- The response that an answer of the repository becomes; of an error it holds nothing. -/
def reply (w : Window) : Except StoreError Found → Response
  | .ok found => .json 200 (Page.ofFound w found).toJson
  | .error _ => .error 500 .unknown "Internal server error"

theorem serve_of_unknown {app : App} {r : Request} {e : AuthError}
    (hl : r.method = "GET" ∧ r.path = listingPath) (ha : app.authenticate r = .error e)
    (read : Query → Except StoreError Found) : app.serve read r = e.response := by
  rw [serve, if_pos hl, ha]

theorem serve_of_authenticated {app : App} {r : Request} {config : Config} {claims : Claims}
    (hl : r.method = "GET" ∧ r.path = listingPath) (ha : app.authenticate r = .ok (config, claims))
    (read : Query → Except StoreError Found) :
    app.serve read r = app.list read config claims r.query := by
  rw [serve, if_pos hl, ha]

theorem list_of_decoded {app : App} {form : Form} {query : String}
    (hf : Form.ofQueryString query = .ok form) (hr : app.hasRepository = true)
    (read : Query → Except StoreError Found) (config : Config) (claims : Claims) :
    app.list read config claims query =
      match Service.prepare claims.roles form config.maxPageSize with
      | .ok (w, q) => reply w (read q)
      | .error e => e.response := by
  rw [list, hf]
  simp only [hr, if_true, Service.list_eq_bind]
  cases Service.prepare claims.roles form config.maxPageSize with
  | error e => rfl
  | ok r =>
    change (match Service.answer r.1 (read r.2) with
      | .ok page => Response.json 200 page.toJson
      | .error e => e.response) = reply r.1 (read r.2)
    cases read r.2 <;> rfl

/-- The repository is asked one query for a request that passes, and the response is its reply. -/
theorem serve_of_entitles {app : App} {r : Request} {config : Config} {claims : Claims}
    {form : Form} {q : Query} (h : app.Entitles r config claims form q)
    (hr : app.hasRepository = true) (read : Query → Except StoreError Found) :
    app.serve read r = reply (windowOf config q) (read (asked config q)) := by
  have ha := (app.authenticate_eq_ok_iff r config claims).mpr ⟨h.configured, h.verified⟩
  have hp := (Service.prepare_eq_ok_iff claims.roles form config.maxPageSize _).mpr
    ⟨h.administrator, q, h.converted, rfl⟩
  rw [serve_of_authenticated h.listing ha, list_of_decoded h.decoded hr, hp]
  rfl

/-- Any other request has a response of its own, an error, whatever the repository would answer. -/
theorem serve_cases (app : App) (r : Request) :
    (∃ config claims form q, app.Entitles r config claims form q ∧ app.hasRepository = true) ∨
      ∃ resp : Response, 400 ≤ resp.status ∧ ∀ read, app.serve read r = resp := by
  by_cases hl : r.method = "GET" ∧ r.path = listingPath
  case neg => exact .inr ⟨.notFound, by decide, fun read => by rw [serve, if_neg hl]⟩
  cases ha : app.authenticate r with
  | error e => exact .inr ⟨e.response, e.response_status, serve_of_unknown hl ha⟩
  | ok known =>
    obtain ⟨config, claims⟩ := known
    obtain ⟨hc, hv⟩ := (app.authenticate_eq_ok_iff r config claims).mp ha
    simp only [serve_of_authenticated hl ha]
    cases hf : Form.ofQueryString r.query with
    | error e => exact .inr ⟨_, le_refl 400, fun read => by rw [list, hf]⟩
    | ok form =>
      by_cases hr : app.hasRepository = true
      case neg =>
        exact .inr ⟨.notConfigured, by decide, fun read => by rw [list, hf]; exact if_neg hr⟩
      cases hp : Service.prepare claims.roles form config.maxPageSize with
      | error e =>
        exact .inr ⟨e.response, e.response_status, fun read => by rw [list_of_decoded hf hr, hp]⟩
      | ok asked =>
        obtain ⟨hadmin, q, hq, -⟩ := (Service.prepare_eq_ok_iff _ _ _ _).mp hp
        exact .inl ⟨config, claims, form, q, ⟨hl, hc, hv, hadmin, hf, hq⟩, hr⟩

end App

namespace Storage

theorem list_eq_ok_iff (s : Storage) (q : Query) (found : Found) :
    s.list q = .ok found ↔ ∃ t, s = .present t ∧ found = q.select t := by
  cases s with
  | present t => simp [list, table, Except.map, eq_comm]
  | dropped => simp [list, table, Except.map]
  | unreachable => simp [list, table, Except.map]

end Storage

namespace App

theorem page_of_entitles {app : App} {r : Request} {config : Config} {claims : Claims} {form : Form}
    {q : Query} (h : app.Entitles r config claims form q) (t : Table) :
    (Storage.present t).page claims.roles form config.maxPageSize =
      .ok (Page.ofFound (windowOf config q) ((asked config q).select t)) := by
  rw [Storage.page_present, (Service.prepare_eq_ok_iff _ _ _ _).mpr
    ⟨h.administrator, q, h.converted, rfl⟩]
  rfl

end App
end PeerRoster
