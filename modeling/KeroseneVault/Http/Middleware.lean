import KeroseneVault.Http.Principal
import KeroseneVault.Http.RateLimiter

/-!
# The middleware of the protected routes

`build_router` puts `require_token_mw` before every protected route: the token,
the rate, the principal and its role, in this order. Which role a path asks for
is decided by the prefixes of `route_class_for_path`, a list beside the table of
the routes.

* `routeClassForPath` — the class of a path;
* `protectedRoutes`, `Routed` — the table of the routes, wildcards included;
* `requireTokenMw` — what a request passes before its handler;
* `RoleChecked` — a principal without the role does not reach the handler;
* `Unclassified` — the served paths without a class.

Main results:

* `requireTokenMw_forbidden` — a class refuses who may not call it;
* `requireTokenMw_unclassified` — where there is no class, the role is not asked;
* `roleChecked_iff` — a served path is checked exactly where it has a class.
-/

namespace KeroseneVault

/-! ## Classes of routes -/

inductive RouteClass where
  | kfeSettlement
  | vaultPeer
  | sharedOps
  | adminRead
  deriving DecidableEq

/-- `MeshRole::as_str`. -/
def MeshRole.asStr : MeshRole → String
  | .kfe => "kfe"
  | .vault => "vault"

def MeshPrincipal.allowsRoute (p : MeshPrincipal) (class_ : RouteClass) : Bool :=
  if p.labOmnipotent then true
  else
    match class_ with
    | .kfeSettlement => p.role = .kfe
    | .vaultPeer => p.role = .vault
    | .sharedOps => true
    | .adminRead => p.role = .vault

/-- `path.split('?').next()`. -/
def beforeQuery (path : String) : String := String.ofList (path.toList.takeWhile (· ≠ '?'))

def routeClassForPath (path : String) : Option RouteClass :=
  let p := beforeQuery path
  if startsWith p "/v1/admin/" then some .adminRead
  else if startsWith p "/v1/sign" || startsWith p "/v1/financial-quorum" ||
      startsWith p "/v1/bitcoin/" ||
      (startsWith p "/v1/intent" && !startsWith p "/v1/intent/consume/") ||
      startsWith p "/sign/" || startsWith p "/intent/" then some .kfeSettlement
  else if startsWith p "/v1/dkg/" || p == "/v1/day/vote" || startsWith p "/v1/anti-nonce/" ||
      startsWith p "/v1/intent/consume/" || startsWith p "/v1/frost/" then some .vaultPeer
  else if p == "/v1/day/advance" || p == "/v1/day/current" || p == "/v1/reshare/trigger" ||
      startsWith p "/release/" || startsWith p "/epoch/" || p == "/ledger" || p == "/threshold" ||
      startsWith p "/economy/" || p == "/health" then some .sharedOps
  else none

/-! ## The table of the routes -/

inductive HttpMethod where
  | get
  | head
  | post
  | put
  | delete
  | patch
  | options
  | trace
  | connect
  deriving DecidableEq

/-- A path, or all that goes on from a prefix, by at least one character. -/
inductive RoutePattern where
  | literal (path : String)
  | wildcard (stem : String)
  deriving DecidableEq

def RoutePattern.matches : RoutePattern → String → Bool
  | .literal path, p => path == p
  | .wildcard stem, p => startsWith p stem && p != stem

structure Route where
  pattern : RoutePattern
  methods : List HttpMethod

/-- `get(handler)` answers `HEAD` too. -/
def onGet (pattern : RoutePattern) : Route := ⟨pattern, [.get, .head]⟩

def onPost (pattern : RoutePattern) : Route := ⟨pattern, [.post]⟩

/-- The protected router of `build_router`. -/
def protectedRoutes : List Route :=
  [onPost (.literal "/v1/sign"),
    onPost (.literal "/v1/financial-quorum"),
    onGet (.literal "/v1/financial-quorum/context"),
    onGet (.literal "/v1/admin/status"),
    onGet (.literal "/v1/admin/ceremony"),
    onPost (.literal "/v1/intent"),
    onPost (.literal "/v1/intent/reserve"),
    onPost (.literal "/v1/intent/release"),
    onPost (.literal "/v1/intent/commit"),
    onGet (.literal "/v1/bitcoin/deposit"),
    onPost (.literal "/v1/bitcoin/sign-sighash"),
    onPost (.literal "/v1/bitcoin/sign-psbt"),
    onPost (.literal "/v1/dkg/round1"),
    onPost (.literal "/v1/dkg/round2"),
    onPost (.literal "/v1/dkg/round3"),
    onGet (.literal "/v1/dkg/status"),
    onPost (.literal "/v1/dkg/tr/round1"),
    onPost (.literal "/v1/dkg/tr/round2"),
    onPost (.literal "/v1/dkg/tr/round3"),
    onGet (.literal "/v1/dkg/tr/status"),
    onPost (.literal "/v1/reshare/tr/round1"),
    onPost (.literal "/v1/reshare/tr/round2"),
    onPost (.literal "/v1/reshare/tr/finalize"),
    onGet (.literal "/v1/reshare/tr/status"),
    onPost (.literal "/v1/anti-nonce/prepare"),
    onPost (.literal "/v1/anti-nonce/ingest"),
    onPost (.literal "/v1/intent/consume/prepare"),
    onPost (.literal "/v1/day/advance"),
    onPost (.literal "/v1/day/vote"),
    onGet (.literal "/v1/day/current"),
    onPost (.literal "/v1/reshare/trigger"),
    onPost (.literal "/v1/frost/tr/commit"),
    onPost (.literal "/v1/frost/tr/sign-share"),
    onGet (.literal "/health"),
    onGet (.literal "/ledger"),
    onGet (.literal "/threshold"),
    onGet (.literal "/economy/status"),
    onGet (.literal "/release/allowlist"),
    ⟨.wildcard "/release/", [.get, .head, .post]⟩,
    onPost (.wildcard "/epoch/"),
    onPost (.wildcard "/sign/"),
    onPost (.wildcard "/intent/"),
    onPost (.wildcard "/profit/"),
    onPost (.wildcard "/economy/")]

/-- The route of a path: a literal one before a wildcard. -/
def routeFor (routes : List Route) (path : String) : Option Route :=
  (routes.find? fun r => r.pattern == .literal path).or
    (routes.find? fun r => r.pattern.matches path)

/-- The method and the path are answered by one of the routes. -/
def Routed (routes : List Route) (method : HttpMethod) (path : String) : Prop :=
  ∃ route, routeFor routes path = some route ∧ method ∈ route.methods

instance (routes : List Route) (method : HttpMethod) (path : String) :
    Decidable (Routed routes method path) :=
  decidable_of_iff ((routeFor routes path).any fun route => method ∈ route.methods)
    (by simp [Routed, Option.any_eq_true])

/-- A route that answers a path matches it. -/
theorem matches_of_routeFor {routes : List Route} {path : String} {route : Route}
    (h : routeFor routes path = some route) : route ∈ routes ∧ route.pattern.matches path = true := by
  rcases Option.or_eq_some_iff.mp h with hLiteral | ⟨-, hWild⟩
  · have hPattern : route.pattern = .literal path := by simpa using List.find?_some hLiteral
    rw [hPattern]
    exact ⟨List.mem_of_find?_eq_some hLiteral, by simp [RoutePattern.matches]⟩
  · exact ⟨List.mem_of_find?_eq_some hWild, by simpa using List.find?_some hWild⟩

/-! ## The middleware -/

/-- What the middleware reads of the node. -/
structure MwConfig where
  authMode : AuthMode
  nodeId : String
  seedPeers : List String
  expectedToken : String

/-- What the middleware reads of a request. -/
structure MwRequest where
  path : String
  token : Option String
  nodeIdHeader : Option String
  peerCert : Option CertSans

namespace MwConfig

variable (cfg : MwConfig)

/-- `VaultAuthPort::authorize`, for the port of the mode. -/
def authorize (token : Option String) : Outcome :=
  match cfg.authMode, token.filter fun t => t ≠ "" with
  | .staticToken, none => .error (.authRejected "missing X-Vault-Token")
  | .staticToken, some provided =>
    if provided ≠ cfg.expectedToken then .error (.authRejected "invalid X-Vault-Token") else .ok ()
  | .mutualTls, some _ => .error (.authRejected
      "static X-Vault-Token refused in mTLS mode; use client certificate")
  | .mutualTls, none => .ok ()

/-- The key under which a request is counted. -/
def rateKey (req : MwRequest) : String := req.nodeIdHeader.getD cfg.nodeId

/-- The principal of a request. -/
def principal (req : MwRequest) : Except Refusal MeshPrincipal :=
  meshPrincipal cfg.authMode cfg.nodeId (meshAllowedNodeIds cfg.nodeId cfg.seedPeers) req.peerCert

end MwConfig

def RouteClass.describe : RouteClass → String
  | .kfeSettlement => "kfe settlement only"
  | .vaultPeer => "vault peer only"
  | .sharedOps => "shared ops"
  | .adminRead => "vault operator read only"

/-- The role that the class of a path asks for. -/
def checkRole (p : MeshPrincipal) (path : String) : Except Refusal Unit :=
  match routeClassForPath path with
  | none => .ok ()
  | some class_ =>
    if p.allowsRoute class_ then .ok ()
    else .error (.text 403
      s!"auth rejected: role {p.role.asStr} cannot call {path} ({class_.describe})")

/-- `require_token_mw`: the principal with which the handler is called. -/
def requireTokenMw (cfg : MwConfig) (limiter : SlidingWindowLimiter) (now : Nat)
    (req : MwRequest) : Except Refusal MeshPrincipal × SlidingWindowLimiter :=
  match cfg.authorize req.token with
  | .error e => (.error (.domain 401 e), limiter)
  | .ok () =>
    match limiter.check now (cfg.rateKey req) with
    | (.error e, limiter) => (.error (.domain 429 e), limiter)
    | (.ok (), limiter) =>
      match cfg.principal req with
      | .error refusal => (.error refusal, limiter)
      | .ok p =>
        match checkRole p req.path with
        | .error refusal => (.error refusal, limiter)
        | .ok () => (.ok p, limiter)

section Outcomes

variable {cfg : MwConfig} {limiter : SlidingWindowLimiter} {now : Nat} {req : MwRequest}
  {p : MeshPrincipal}

/-- Who passes is the principal, in its role, with room in the window of its key. -/
theorem requireTokenMw_ok_iff : (requireTokenMw cfg limiter now req).1 = .ok p ↔
    cfg.authorize req.token = .ok () ∧ (limiter.check now (cfg.rateKey req)).1 = .ok () ∧
      cfg.principal req = .ok p ∧ checkRole p req.path = .ok () := by
  unfold requireTokenMw
  cases cfg.authorize req.token with
  | error e => simp
  | ok u =>
    obtain ⟨checked, limiter'⟩ := limiter.check now (cfg.rateKey req)
    cases checked with
    | error e => simp
    | ok u' =>
      cases cfg.principal req with
      | error refusal => simp
      | ok q =>
        dsimp only
        -- the role is checked last, of the principal that the certificate has
        cases hRole : checkRole q req.path with
        | error refusal =>
          constructor
          · intro h
            cases h
          · rintro ⟨-, -, hSame, hOk⟩
            obtain rfl := Except.ok.inj hSame
            exact absurd (hRole.symm.trans hOk) nofun
        | ok u'' =>
          constructor
          · intro h
            obtain rfl := Except.ok.inj h
            exact ⟨rfl, rfl, rfl, hRole⟩
          · rintro ⟨-, -, hSame, -⟩
            exact hSame

/-- A principal that its class refuses does not reach the handler. -/
theorem requireTokenMw_forbidden {class_ : RouteClass}
    (hClass : routeClassForPath req.path = some class_) (hPrincipal : cfg.principal req = .ok p)
    (hRole : p.allowsRoute class_ = false) :
    ∃ refusal, (requireTokenMw cfg limiter now req).1 = .error refusal := by
  cases hMw : (requireTokenMw cfg limiter now req).1 with
  | error refusal => exact ⟨refusal, rfl⟩
  | ok q =>
    obtain ⟨-, -, hSame, hOk⟩ := requireTokenMw_ok_iff.mp hMw
    obtain rfl := Except.ok.inj (hPrincipal.symm.trans hSame)
    unfold checkRole at hOk
    rw [hClass] at hOk
    dsimp only at hOk
    rw [if_neg (by rw [hRole]; exact Bool.false_ne_true)] at hOk
    cases hOk

/-- Where a path has no class, whoever has a principal reaches the handler. -/
theorem requireTokenMw_unclassified (hClass : routeClassForPath req.path = none)
    (hToken : cfg.authorize req.token = .ok ())
    (hRate : (limiter.check now (cfg.rateKey req)).1 = .ok ())
    (hPrincipal : cfg.principal req = .ok p) :
    (requireTokenMw cfg limiter now req).1 = .ok p := by
  have hRole : checkRole p req.path = .ok () := by
    unfold checkRole
    rw [hClass]
  exact requireTokenMw_ok_iff.mpr ⟨hToken, hRate, hPrincipal, hRole⟩

end Outcomes

/-! ## Which paths are checked -/

/-- A path has a class, and who may not call it does not reach its handler. -/
def RoleChecked (path : String) : Prop :=
  ∃ class_, routeClassForPath path = some class_ ∧
    ∀ cfg limiter now (req : MwRequest) p, req.path = path → cfg.principal req = .ok p →
      p.allowsRoute class_ = false → ∃ refusal, (requireTokenMw cfg limiter now req).1 = .error refusal

theorem roleChecked_iff_isSome {path : String} :
    RoleChecked path ↔ (routeClassForPath path).isSome := by
  rw [Option.isSome_iff_exists]
  constructor
  · rintro ⟨class_, hClass, -⟩
    exact ⟨class_, hClass⟩
  · rintro ⟨class_, hClass⟩
    refine ⟨class_, hClass, fun cfg limiter now req p hPath hPrincipal hRole => ?_⟩
    exact requireTokenMw_forbidden (hPath ▸ hClass) hPrincipal hRole

/-- The routes of the reshare over Taproot. -/
def reshareTrPaths : List String :=
  ["/v1/reshare/tr/round1", "/v1/reshare/tr/round2", "/v1/reshare/tr/finalize",
    "/v1/reshare/tr/status"]

/-- The served paths without a class. -/
def Unclassified (path : String) : Prop :=
  path ∈ reshareTrPaths ∨ startsWith path "/profit/" = true

theorem startsWith_iff {s pat : String} : startsWith s pat = true ↔ pat.toList <+: s.toList := by
  unfold startsWith
  rw [List.isPrefixOf_iff_prefix]

/-- A prefix without a query is one of the path up to its query. -/
theorem startsWith_beforeQuery {path stem : String} (hPlain : '?' ∉ stem.toList) :
    startsWith (beforeQuery path) stem = startsWith path stem := by
  have hStem : stem.toList.takeWhile (· ≠ '?') = stem.toList :=
    List.takeWhile_eq_self_iff.mpr fun c hc => by
      have hNe : c ≠ '?' := fun hEq => hPlain (hEq ▸ hc)
      simpa using hNe
  rw [Bool.eq_iff_iff, startsWith_iff, startsWith_iff, beforeQuery, String.toList_ofList]
  constructor
  · exact fun h => h.trans (List.takeWhile_prefix _)
  · rintro ⟨rest, hRest⟩
    rw [← hRest, List.takeWhile_append_of_pos (fun c hc => List.takeWhile_eq_self_iff.mp hStem c hc)]
    exact List.prefix_append _ _

/-- Of two prefixes of one text, one goes on from the other. -/
theorem startsWith_of_startsWith {s stem pat : String} (hStem : startsWith s stem = true)
    (hApart : startsWith pat stem = false ∧ startsWith stem pat = false) :
    startsWith s pat = false := by
  rw [Bool.eq_false_iff]
  intro hPat
  rcases List.prefix_or_prefix_of_prefix (startsWith_iff.mp hStem) (startsWith_iff.mp hPat) with h | h
  · exact absurd (startsWith_iff.mpr h) (by rw [hApart.1]; exact Bool.false_ne_true)
  · exact absurd (startsWith_iff.mpr h) (by rw [hApart.2]; exact Bool.false_ne_true)

/-- What goes on from a prefix is not a text that does not. -/
theorem ne_of_startsWith {s stem t : String} (hStem : startsWith s stem = true)
    (hApart : startsWith t stem = false) : (s == t) = false := by
  rw [beq_eq_false_iff_ne]
  rintro rfl
  exact absurd (hStem.symm.trans hApart) nofun

/-- What is below `/profit/` has no class. -/
theorem routeClassForPath_profit {path : String} (h : startsWith path "/profit/" = true) :
    routeClassForPath path = none := by
  have hStem : startsWith (beforeQuery path) "/profit/" = true := by
    rw [startsWith_beforeQuery (by decide)]
    exact h
  -- no prefix of the list is one of `/profit/` or goes on from it
  have hOther (pat : String)
      (hApart : startsWith pat "/profit/" = false ∧ startsWith "/profit/" pat = false) :=
    startsWith_of_startsWith hStem hApart
  have hNe (t : String) (hApart : startsWith t "/profit/" = false) := ne_of_startsWith hStem hApart
  unfold routeClassForPath
  dsimp only
  simp only [hOther "/v1/admin/" (by decide), hOther "/v1/sign" (by decide),
    hOther "/v1/financial-quorum" (by decide), hOther "/v1/bitcoin/" (by decide),
    hOther "/v1/intent" (by decide), hOther "/sign/" (by decide), hOther "/intent/" (by decide),
    hOther "/v1/dkg/" (by decide), hOther "/v1/anti-nonce/" (by decide),
    hOther "/v1/intent/consume/" (by decide), hOther "/v1/frost/" (by decide),
    hOther "/release/" (by decide), hOther "/epoch/" (by decide), hOther "/economy/" (by decide),
    hNe "/v1/day/vote" (by decide), hNe "/v1/day/advance" (by decide),
    hNe "/v1/day/current" (by decide), hNe "/v1/reshare/trigger" (by decide),
    hNe "/ledger" (by decide), hNe "/threshold" (by decide), hNe "/health" (by decide),
    Bool.false_and, Bool.or_false, Bool.false_eq_true, if_false]

/-- The stems of the wildcards that the classes know. -/
def classifiedStems : List String := ["/release/", "/epoch/", "/sign/", "/intent/", "/economy/"]

theorem routeClassForPath_stem {path stem : String} (hStem : stem ∈ classifiedStems)
    (h : startsWith path stem = true) : (routeClassForPath path).isSome := by
  have hPlain : '?' ∉ stem.toList := (by decide : ∀ s ∈ classifiedStems, '?' ∉ s.toList) stem hStem
  rw [← startsWith_beforeQuery hPlain] at h
  unfold routeClassForPath
  dsimp only
  simp only [classifiedStems, List.mem_cons, List.not_mem_nil, or_false] at hStem
  rcases hStem with rfl | rfl | rfl | rfl | rfl
  all_goals
    simp only [h, Bool.true_or, Bool.or_true, if_true]
    split_ifs <;> rfl

/-- Every route of the table: a classified literal, a classified stem, or one without a class. -/
theorem protectedRoutes_pattern {route : Route} (h : route ∈ protectedRoutes) :
    match route.pattern with
    | .literal path => (routeClassForPath path).isSome = !(path ∈ reshareTrPaths : Bool)
    | .wildcard stem => stem ∈ classifiedStems ∨ stem = "/profit/" := by
  have hAll : protectedRoutes.all fun route =>
      match route.pattern with
      | .literal path => (routeClassForPath path).isSome == !(path ∈ reshareTrPaths : Bool)
      | .wildcard stem => classifiedStems.contains stem || stem == "/profit/" := by decide +kernel
  have hRoute := List.all_eq_true.mp hAll route h
  revert hRoute
  cases route.pattern with
  | literal path => exact fun hRoute => by simpa using hRoute
  | wildcard stem => exact fun hRoute => by simpa using hRoute

/--
**Which routes are checked.** A path that the protected router serves has a
class, and refuses who may not call it, exactly where it is none of the reshare
routes and not below `/profit/`.
-/
theorem roleChecked_iff (method : HttpMethod) (path : String)
    (hServed : Routed protectedRoutes method path) : RoleChecked path ↔ ¬ Unclassified path := by
  rw [roleChecked_iff_isSome]
  obtain ⟨route, hRoute, -⟩ := hServed
  obtain ⟨hMem, hMatches⟩ := matches_of_routeFor hRoute
  have hPattern := protectedRoutes_pattern hMem
  revert hPattern hMatches
  -- the classes are looked up by path, so the routes are told apart by their patterns
  cases route.pattern with
  | literal known =>
    intro hMatches hPattern
    obtain rfl : known = path := by simpa [RoutePattern.matches] using hMatches
    by_cases hReshare : known ∈ reshareTrPaths
    · have hNone : (routeClassForPath known).isSome = false := by simpa [hReshare] using hPattern
      exact iff_of_false (by rw [hNone]; exact Bool.false_ne_true) fun h => h (.inl hReshare)
    · have hSome : (routeClassForPath known).isSome = true := by simpa [hReshare] using hPattern
      refine iff_of_true hSome ?_
      rintro (h | h)
      · exact hReshare h
      · rw [routeClassForPath_profit h] at hSome
        cases hSome
  | wildcard stem =>
    intro hMatches hPattern
    -- a wildcard reaches every path with its stem
    have hStem : startsWith path stem = true := by
      simp only [RoutePattern.matches, Bool.and_eq_true] at hMatches
      exact hMatches.1
    rcases hPattern with hKnown | rfl
    · have hSome := routeClassForPath_stem hKnown hStem
      refine iff_of_true hSome ?_
      rintro (h | h)
      · have hNone : ∀ p ∈ reshareTrPaths, routeClassForPath p = none := by decide +kernel
        rw [hNone path h] at hSome
        cases hSome
      · rw [routeClassForPath_profit h] at hSome
        cases hSome
    · refine iff_of_false ?_ fun h => h (.inr hStem)
      rw [routeClassForPath_profit hStem]
      exact Bool.false_ne_true

theorem roleChecked_dayVote : RoleChecked "/v1/day/vote" :=
  (roleChecked_iff .post "/v1/day/vote" (by decide +kernel)).mpr
    (by unfold Unclassified; decide +kernel)

/-- A request for a reshare round under the certificate of the settlement service. -/
def kfeReshare : MwRequest where
  path := "/v1/reshare/tr/round1"
  token := none
  nodeIdHeader := none
  peerCert := some (.ok (["spiffe://kerosene.lab/kfe"], []))

/-- The route is served, has no class, and the settlement service reaches it. -/
theorem roleChecked_fails :
    Routed protectedRoutes .post "/v1/reshare/tr/round1" ∧ ¬ RoleChecked "/v1/reshare/tr/round1" ∧
      (requireTokenMw ⟨.mutualTls, "vault-1", [], ""⟩ .authDefaults 0 kfeReshare).1 =
        .ok ⟨.kfe, "kfe", false⟩ := by
  have hNone : routeClassForPath "/v1/reshare/tr/round1" = none := by decide +kernel
  refine ⟨by decide +kernel, ?_, requireTokenMw_unclassified hNone rfl rfl (by decide +kernel)⟩
  rintro ⟨class_, hClass, -⟩
  exact absurd (hNone.symm.trans hClass) nofun

end KeroseneVault
