import KeroseneVault.Http.Middleware

/-!
# The rate limits, over runs of requests

The middleware counts a request under its `X-Vault-Node-Id` header, or under the
local node without one, and before it knows the principal. The prepare routes
count under the local node. Beside the two limiters stands a record: what each
let through and of whom, and who passed.

* `handleRequest` — a request at the protected router, up to its handler;
* `RateNode.step` — the same beside the record;
* `PerPrincipal` — the limits are those of each principal;
* `OwnWindows` — the windows of a request are filled by its own principal.

Main results:

* `LetThrough.check_of_hasRoom` — a limiter knows what it let through;
* `atMost_step`, `Solo.step` — what one request keeps;
* `perPrincipal_of_ownWindows` — the limits are those of each principal along
  every run whose requests find windows of their own.
-/

namespace KeroseneVault

/-! ## Requests at the router -/

/-- `AppState`, the limiters. -/
structure RateLimits where
  authLimiter : SlidingWindowLimiter
  prepareLimiter : SlidingWindowLimiter

/-- A request at an instant. -/
structure TimedRequest extends MwRequest where
  now : Nat
  method : HttpMethod
  /-- The body of a prepare route is valid JSON of its shape. -/
  bodyParses : Bool

/-- What comes of a request. -/
inductive Answer where
  | notFound
  | refused (refusal : Refusal)
  | reached (p : MeshPrincipal) (handler : Except Refusal Unit)
  deriving DecidableEq

namespace Answer

/-- Who passed the middleware. -/
def passed : Answer → Option MeshPrincipal
  | .reached p _ => some p
  | _ => none

/-- `429 Too Many Requests`. -/
def rateLimited : Answer → Bool
  | .refused (.domain 429 _) => true
  | .reached _ (.error (.domain 429 _)) => true
  | _ => false

end Answer

/-- The routes of `v1_anti_nonce_prepare` and `v1_intent_consume_prepare`. -/
def preparePaths : List String :=
  ["/v1/anti-nonce/prepare", "/v1/anti-nonce/ingest", "/v1/intent/consume/prepare"]

/-- The request is one that a prepare handler counts. -/
def TimedRequest.prepares (req : TimedRequest) : Bool :=
  preparePaths.contains req.path && req.method == .post && req.bodyParses

/-- The check at the start of the prepare handlers; the other handlers count nothing. -/
def checkPrepare (cfg : MwConfig) (limiter : SlidingWindowLimiter) (req : TimedRequest) :
    Except Refusal Unit × SlidingWindowLimiter :=
  if req.prepares then
    match limiter.check req.now cfg.nodeId with
    | (.error e, limiter) => (.error (.domain 429 e), limiter)
    | (.ok (), limiter) => (.ok (), limiter)
  else (.ok (), limiter)

/-- A request at the protected router. -/
def handleRequest (cfg : MwConfig) (l : RateLimits) (req : TimedRequest) : Answer × RateLimits :=
  if (routeFor protectedRoutes req.path).isNone then (.notFound, l)
  else
    -- the middleware of a route runs for the methods too that it does not answer
    match requireTokenMw cfg l.authLimiter req.now req.toMwRequest with
    | (.error refusal, authLimiter) => (.refused refusal, { l with authLimiter })
    | (.ok p, authLimiter) =>
      let (handler, prepareLimiter) := checkPrepare cfg l.prepareLimiter req
      (.reached p handler, ⟨authLimiter, prepareLimiter⟩)

/-! ## What a limiter lets through -/

/-- A check that was let through, and of whose request. -/
structure Admission where
  time : Nat
  key : String
  caller : Option MeshPrincipal

/-- The length of a window, in nanoseconds. -/
def windowNanos : Nat := 60 * 10 ^ 9

namespace Admission

/-- It still counts at `now`. -/
def recent (now : Nat) (a : Admission) : Bool := Window.recent Admission.time windowNanos now a

end Admission

/-- How many under a key still count. -/
def countUnder (log : List Admission) (now : Nat) (key : String) : Nat :=
  log.countP fun a => a.key == key && a.recent now

/-- How many of them are of one caller. -/
def ownUnder (log : List Admission) (now : Nat) (key : String) (caller : Option MeshPrincipal) :
    Nat :=
  log.countP fun a => a.caller == caller && (a.key == key && a.recent now)

theorem ownUnder_le (log : List Admission) (now : Nat) (key : String)
    (caller : Option MeshPrincipal) : ownUnder log now key caller ≤ countUnder log now key :=
  List.countP_mono_left fun _ _ h => (Bool.and_eq_true_iff.mp h).2

/-- Among the entries of one caller, all are its own. -/
theorem countUnder_filter (log : List Admission) (now : Nat) (key : String)
    (caller : Option MeshPrincipal) :
    countUnder (log.filter fun a => a.caller == caller) now key = ownUnder log now key caller := by
  unfold countUnder ownUnder
  rw [List.countP_filter]
  exact List.countP_congr fun a _ => by rw [Bool.and_comm]

/-- A limiter of `limit` has let through `log`, all of it by the instant `last`. -/
structure LetThrough (limit : Nat) (l : SlidingWindowLimiter) (last : Nat)
    (log : List Admission) : Prop where
  limit_eq : l.limit.toNat = limit
  window_eq : l.window = windowNanos
  recalls : SlidingWindowLimiter.Recalls Admission.time Admission.key l last log

namespace LetThrough

variable {limit last now : Nat} {l : SlidingWindowLimiter} {log : List Admission} {key : String}

theorem later (h : LetThrough limit l last log) (hLast : last ≤ now) : LetThrough limit l now log :=
  ⟨h.limit_eq, h.window_eq, h.recalls.later hLast⟩

/-- There is room while fewer than the limit count. -/
theorem hasRoom_iff (h : LetThrough limit l last log) (hLast : last ≤ now) :
    l.hasRoom now key = true ↔ countUnder log now key < limit := by
  rw [h.recalls.hasRoom_iff hLast, h.limit_eq, h.window_eq]
  rfl

/-- A check that finds room is one more that was let through. -/
theorem check_of_hasRoom (h : LetThrough limit l last log) (hLast : last ≤ now)
    (hRoom : l.hasRoom now key = true) (caller : Option MeshPrincipal) :
    LetThrough limit (l.check now key).2 now (log ++ [⟨now, key, caller⟩]) where
  limit_eq := by rw [SlidingWindowLimiter.check_limit, h.limit_eq]
  window_eq := by rw [SlidingWindowLimiter.check_window, h.window_eq]
  recalls := h.recalls.check_of_hasRoom hLast hRoom rfl rfl

/-- A check that finds none leaves what was let through. -/
theorem check_of_full (h : LetThrough limit l last log) (hLast : last ≤ now)
    (hFull : l.hasRoom now key = false) : LetThrough limit (l.check now key).2 now log where
  limit_eq := by rw [SlidingWindowLimiter.check_limit, h.limit_eq]
  window_eq := by rw [SlidingWindowLimiter.check_window, h.window_eq]
  recalls := h.recalls.check_of_full hLast hFull

/-- Two limiters of one limit answer a check alike where both have room or neither. -/
theorem check_congr {log' : List Admission} {l' : SlidingWindowLimiter} {last' : Nat}
    (h : LetThrough limit l last log) (h' : LetThrough limit l' last' log')
    (hSame : l.hasRoom now key = l'.hasRoom now key) : (l.check now key).1 = (l'.check now key).1 :=
  SlidingWindowLimiter.check_congr (UInt32.toNat.inj (h.limit_eq.trans h'.limit_eq.symm))
    (h.window_eq.trans h'.window_eq.symm) hSame

end LetThrough

/-! ## What the limiters decide of a request -/

/-- The request comes to a check: its path is routed and its token in order. -/
def MwConfig.counts (cfg : MwConfig) (req : TimedRequest) : Bool :=
  (routeFor protectedRoutes req.path).isSome && cfg.authorize req.token == .ok ()

/-- The principal of a request, where it has one. -/
def MwConfig.caller (cfg : MwConfig) (req : TimedRequest) : Option MeshPrincipal :=
  (cfg.principal req.toMwRequest).toOption

section Handle

variable {cfg : MwConfig} {l l' : RateLimits} {req : TimedRequest} {p : MeshPrincipal}

theorem requireTokenMw_snd (limiter : SlidingWindowLimiter) (now : Nat) (req : MwRequest) :
    (requireTokenMw cfg limiter now req).2 =
      if cfg.authorize req.token = .ok () then (limiter.check now (cfg.rateKey req)).2
      else limiter := by
  unfold requireTokenMw
  cases cfg.authorize req.token with
  | error e => simp
  | ok u =>
    rw [if_pos rfl]
    -- the limiter is asked before the certificate is looked at
    obtain ⟨checked, limiter'⟩ := limiter.check now (cfg.rateKey req)
    cases checked with
    | error e => rfl
    | ok u' =>
      cases cfg.principal req with
      | error refusal => rfl
      | ok p =>
        dsimp only
        cases checkRole p req.path with
        | error refusal => rfl
        | ok u'' => rfl

theorem requireTokenMw_fst_congr {limiter limiter' : SlidingWindowLimiter} {now : Nat}
    {req : MwRequest}
    (h : cfg.authorize req.token = .ok () →
      (limiter.check now (cfg.rateKey req)).1 = (limiter'.check now (cfg.rateKey req)).1) :
    (requireTokenMw cfg limiter now req).1 = (requireTokenMw cfg limiter' now req).1 := by
  unfold requireTokenMw
  cases hToken : cfg.authorize req.token with
  | error e => rfl
  | ok u =>
    have hSame := h hToken
    -- token, then rate, then principal and role
    revert hSame
    obtain ⟨checked, next⟩ := limiter.check now (cfg.rateKey req)
    obtain ⟨checked', next'⟩ := limiter'.check now (cfg.rateKey req)
    intro hSame
    obtain rfl : checked = checked' := hSame
    cases checked with
    | error e => rfl
    | ok u' =>
      cases cfg.principal req with
      | error refusal => rfl
      | ok p =>
        dsimp only
        cases checkRole p req.path with
        | error refusal => rfl
        | ok u'' => rfl

/-- The auth limiter after a request. -/
theorem handleRequest_authLimiter : (handleRequest cfg l req).2.authLimiter =
    if cfg.counts req then (l.authLimiter.check req.now (cfg.rateKey req.toMwRequest)).2
    else l.authLimiter := by
  have hMw := @requireTokenMw_snd cfg l.authLimiter req.now req.toMwRequest
  unfold handleRequest MwConfig.counts
  cases routeFor protectedRoutes req.path with
  | none => rfl
  | some route =>
    rw [Option.isNone_some, Option.isSome_some, Bool.true_and, if_neg Bool.false_ne_true]
    simp only [beq_iff_eq]
    rw [← hMw]
    obtain ⟨result, limiter⟩ := requireTokenMw cfg l.authLimiter req.now req.toMwRequest
    cases result with
    | error refusal => rfl
    | ok p => rfl

/-- Who passes. -/
theorem handleRequest_passed_iff : (handleRequest cfg l req).1.passed = some p ↔
    cfg.counts req = true ∧
      l.authLimiter.hasRoom req.now (cfg.rateKey req.toMwRequest) = true ∧
      cfg.principal req.toMwRequest = .ok p ∧ checkRole p req.path = .ok () := by
  have hMw := @requireTokenMw_ok_iff cfg l.authLimiter req.now req.toMwRequest p
  rw [SlidingWindowLimiter.check_ok_iff] at hMw
  unfold handleRequest MwConfig.counts
  cases routeFor protectedRoutes req.path with
  | none => simp [Answer.passed]
  | some route =>
    rw [Option.isNone_some, Option.isSome_some, Bool.true_and, if_neg Bool.false_ne_true, beq_iff_eq,
      ← hMw]
    obtain ⟨result, limiter⟩ := requireTokenMw cfg l.authLimiter req.now req.toMwRequest
    cases result with
    | error refusal => simp [Answer.passed]
    | ok q => simp [Answer.passed]

/-- The prepare limiter after a request. -/
theorem handleRequest_prepareLimiter : (handleRequest cfg l req).2.prepareLimiter =
    if (handleRequest cfg l req).1.passed.isSome && req.prepares then
      (l.prepareLimiter.check req.now cfg.nodeId).2
    else l.prepareLimiter := by
  unfold handleRequest
  cases routeFor protectedRoutes req.path with
  | none => rfl
  | some route =>
    rw [Option.isNone_some, if_neg Bool.false_ne_true]
    obtain ⟨result, limiter⟩ := requireTokenMw cfg l.authLimiter req.now req.toMwRequest
    cases result with
    | error refusal => rfl
    | ok p =>
      show (checkPrepare cfg l.prepareLimiter req).2 = if req.prepares then _ else _
      unfold checkPrepare
      split
      · obtain ⟨checked, limiter'⟩ := l.prepareLimiter.check req.now cfg.nodeId
        cases checked <;> rfl
      · rfl

/-- Where both limiters answer alike, so does the router. -/
theorem handleRequest_congr
    (hAuth : cfg.counts req = true →
      (l.authLimiter.check req.now (cfg.rateKey req.toMwRequest)).1 =
        (l'.authLimiter.check req.now (cfg.rateKey req.toMwRequest)).1)
    (hPrepare : (handleRequest cfg l req).1.passed.isSome = true → req.prepares = true →
      (l.prepareLimiter.check req.now cfg.nodeId).1 =
        (l'.prepareLimiter.check req.now cfg.nodeId).1) :
    (handleRequest cfg l req).1 = (handleRequest cfg l' req).1 := by
  unfold handleRequest at hPrepare ⊢
  unfold MwConfig.counts at hAuth
  cases hRoute : routeFor protectedRoutes req.path with
  | none => rfl
  | some route =>
    rw [hRoute] at hPrepare hAuth
    rw [Option.isSome_some, Bool.true_and, beq_iff_eq] at hAuth
    -- the middleware answers alike, and then the limiter of the handler does
    have hMw := requireTokenMw_fst_congr hAuth
    rw [Option.isNone_some, if_neg Bool.false_ne_true] at hPrepare ⊢
    rw [if_neg Bool.false_ne_true]
    revert hPrepare hMw
    obtain ⟨result, limiter⟩ := requireTokenMw cfg l.authLimiter req.now req.toMwRequest
    obtain ⟨result', limiter'⟩ := requireTokenMw cfg l'.authLimiter req.now req.toMwRequest
    intro hPrepare hMw
    obtain rfl : result = result' := hMw
    cases result with
    | error refusal => rfl
    | ok p =>
      show Answer.reached p (checkPrepare cfg l.prepareLimiter req).1 =
        .reached p (checkPrepare cfg l'.prepareLimiter req).1
      refine congrArg (Answer.reached p) ?_
      unfold checkPrepare
      split
      · rename_i hPrepares
        have hSame := hPrepare rfl hPrepares
        revert hSame
        obtain ⟨checked, next⟩ := l.prepareLimiter.check req.now cfg.nodeId
        obtain ⟨checked', next'⟩ := l'.prepareLimiter.check req.now cfg.nodeId
        intro hSame
        obtain rfl : checked = checked' := hSame
        cases checked <;> rfl
      · rfl

end Handle

/-! ## Runs -/

/-- The limiters of a node, and beside them what each let through and who passed. -/
structure RateNode extends RateLimits where
  admitted : List Admission
  prepared : List Admission
  passes : List (Nat × MeshPrincipal)

namespace RateNode

def start : RateNode := ⟨⟨.authDefaults, .prepareDefaults⟩, [], [], []⟩

/-- The auth limiter lets the request through. -/
def admits (cfg : MwConfig) (s : RateNode) (req : TimedRequest) : Bool :=
  cfg.counts req && s.authLimiter.hasRoom req.now (cfg.rateKey req.toMwRequest)

/-- The prepare limiter lets the request through. -/
def admitsPrepare (cfg : MwConfig) (s : RateNode) (req : TimedRequest) : Bool :=
  ((handleRequest cfg s.toRateLimits req).1.passed.isSome && req.prepares) &&
    s.prepareLimiter.hasRoom req.now cfg.nodeId

def step (cfg : MwConfig) (s : RateNode) (req : TimedRequest) : RateNode :=
  let (answer, l) := handleRequest cfg s.toRateLimits req
  { toRateLimits := l
    admitted := s.admitted ++ if s.admits cfg req then
      [⟨req.now, cfg.rateKey req.toMwRequest, cfg.caller req⟩] else []
    prepared := s.prepared ++ if s.admitsPrepare cfg req then
      [⟨req.now, cfg.nodeId, cfg.caller req⟩] else []
    passes := s.passes ++ (answer.passed.map fun p => (req.now, p)).toList }

/-- How often a principal passed within the window that ends at `now`. -/
def recentPasses (s : RateNode) (p : MeshPrincipal) (now : Nat) : Nat :=
  s.passes.countP fun e => e.2 == p && Window.recent Prod.fst windowNanos now e

end RateNode

/-- Where a window is full, the caller's own entries fill it. -/
def FillsAlone (limit : Nat) (log : List Admission) (now : Nat) (key : String)
    (caller : Option MeshPrincipal) : Prop :=
  limit ≤ countUnder log now key → limit ≤ ownUnder log now key caller

instance (limit : Nat) (log : List Admission) (now : Nat) (key : String)
    (caller : Option MeshPrincipal) : Decidable (FillsAlone limit log now key caller) :=
  inferInstanceAs (Decidable (_ → _))

/--
The windows of a request are its principal's. A full window of its key or of the
prepare routes is filled by the principal alone, and where the principal has
passed as often as one may, it did so under this key.
-/
def OwnWindows (cfg : MwConfig) (s : RateNode) (req : TimedRequest) : Prop :=
  match cfg.counts req, cfg.principal req.toMwRequest with
  | true, .ok p =>
    FillsAlone 60 s.admitted req.now (cfg.rateKey req.toMwRequest) (some p) ∧
      (checkRole p req.path = .ok () →
        (60 ≤ s.recentPasses p req.now →
          60 ≤ ownUnder s.admitted req.now (cfg.rateKey req.toMwRequest) (some p)) ∧
        (req.prepares = true → FillsAlone 30 s.prepared req.now cfg.nodeId (some p)))
  | _, _ => True

instance (cfg : MwConfig) (s : RateNode) (req : TimedRequest) : Decidable (OwnWindows cfg s req) := by
  unfold OwnWindows
  split <;> infer_instance

/-- The limits are those of each principal. -/
structure PerPrincipal (cfg : MwConfig) (reqs : List TimedRequest) : Prop where
  /-- A principal passes sixty times at most within any half-open minute. -/
  atMost : ∀ p start, (Runs.run (RateNode.step cfg) .start reqs).passes.countP
    (fun e => e.2 == p && Window.inside Prod.fst windowNanos start e) ≤ 60
  /-- Who is refused for rate would be without the requests of others. -/
  own : ∀ before req after p, reqs = before ++ req :: after → cfg.caller req = some p →
    (handleRequest cfg (Runs.run (RateNode.step cfg) .start before).toRateLimits req).1.rateLimited =
      true →
    (handleRequest cfg (Runs.run (RateNode.step cfg) .start
      (before.filter fun r => cfg.caller r == some p)).toRateLimits req).1.rateLimited = true

namespace RateNode

variable {cfg : MwConfig} {s s' : RateNode} {last : Nat} {req : TimedRequest} {p : MeshPrincipal}

/-- The limiters know what they let through, and no pass is later than `last`. -/
structure Inv (s : RateNode) (last : Nat) : Prop where
  auth : LetThrough 60 s.authLimiter last s.admitted
  prepare : LetThrough 30 s.prepareLimiter last s.prepared
  passes : ∀ e ∈ s.passes, e.1 ≤ last

theorem inv_start (last : Nat) : Inv start last where
  auth := ⟨rfl, rfl, SlidingWindowLimiter.Recalls.new 60 windowNanos last⟩
  prepare := ⟨rfl, rfl, SlidingWindowLimiter.Recalls.new 30 windowNanos last⟩
  passes := nofun

/-- Each request keeps the record right. -/
theorem Inv.step (h : Inv s last) (hLast : last ≤ req.now) : Inv (s.step cfg req) req.now where
  auth := by
    show LetThrough 60 (handleRequest cfg s.toRateLimits req).2.authLimiter req.now
      (s.admitted ++ if s.admits cfg req then _ else _)
    rw [handleRequest_authLimiter, admits]
    cases cfg.counts req with
    | false => simpa using h.auth.later hLast
    | true =>
      rw [if_pos rfl, Bool.true_and]
      -- a full window is checked and left
      cases hRoom : s.authLimiter.hasRoom req.now (cfg.rateKey req.toMwRequest) with
      | true => exact h.auth.check_of_hasRoom hLast hRoom (cfg.caller req)
      | false => simpa using h.auth.check_of_full hLast hRoom
  prepare := by
    show LetThrough 30 (handleRequest cfg s.toRateLimits req).2.prepareLimiter req.now
      (s.prepared ++ if s.admitsPrepare cfg req then _ else _)
    rw [handleRequest_prepareLimiter, admitsPrepare]
    cases (handleRequest cfg s.toRateLimits req).1.passed.isSome && req.prepares with
    | false => simpa using h.prepare.later hLast
    | true =>
      rw [if_pos rfl, Bool.true_and]
      cases hRoom : s.prepareLimiter.hasRoom req.now cfg.nodeId with
      | true => exact h.prepare.check_of_hasRoom hLast hRoom (cfg.caller req)
      | false => simpa using h.prepare.check_of_full hLast hRoom
  passes e he := by
    rcases List.mem_append.mp he with he | he
    · exact (h.passes e he).trans hLast
    · obtain ⟨q, -, rfl⟩ := Option.map_eq_some_iff.mp (Option.mem_toList.mp he)
      exact le_refl _

/-- A principal passes sixty times at most within any half-open minute. -/
def AtMost (s : RateNode) : Prop := ∀ p start,
  s.passes.countP (fun e => e.2 == p && Window.inside Prod.fst windowNanos start e) ≤ 60

/-- Who passes has passed fewer than sixty times within the last minute. -/
theorem recentPasses_lt (h : Inv s last) (hLast : last ≤ req.now) (hOwn : OwnWindows cfg s req)
    (hPassed : (handleRequest cfg s.toRateLimits req).1.passed = some p) :
    s.recentPasses p req.now < 60 := by
  obtain ⟨hCounts, hRoom, hPrincipal, hRole⟩ := handleRequest_passed_iff.mp hPassed
  have hUnder := (h.auth.hasRoom_iff hLast).mp hRoom
  unfold OwnWindows at hOwn
  rw [hCounts, hPrincipal] at hOwn
  by_contra hMany
  have hOwnUnder := (hOwn.2 hRole).1 (by omega)
  have hLe := ownUnder_le s.admitted req.now (cfg.rateKey req.toMwRequest) (some p)
  omega

theorem atMost_step (h : Inv s last) (hLast : last ≤ req.now) (hOwn : OwnWindows cfg s req)
    (hAtMost : s.AtMost) : (s.step cfg req).AtMost := by
  intro p start
  show (s.passes ++ ((handleRequest cfg s.toRateLimits req).1.passed.map
    fun p => (req.now, p)).toList).countP _ ≤ 60
  cases hPassed : (handleRequest cfg s.toRateLimits req).1.passed with
  | none => simpa using hAtMost p start
  | some q =>
    refine Window.countP_inside_append_le (fun e he => (h.passes e he).trans hLast) (hAtMost p)
      (fun hp => ?_) start
    obtain rfl : q = p := by simpa using hp
    exact recentPasses_lt h hLast hOwn hPassed

/-! ### A principal alone -/

/-- The node `s'` saw of the requests that `s` saw those of `p` alone, and answered them alike. -/
structure Solo (p : MeshPrincipal) (s s' : RateNode) (last : Nat) : Prop where
  all : Inv s last
  alone : Inv s' last
  admitted : s'.admitted = s.admitted.filter fun a => a.caller == some p
  prepared : s'.prepared = s.prepared.filter fun a => a.caller == some p

theorem solo_start (p : MeshPrincipal) (last : Nat) : Solo p start start last :=
  ⟨inv_start last, inv_start last, rfl, rfl⟩

/-- A window that the principal fills alone is full for both nodes or for neither. -/
theorem hasRoom_eq_of_fillsAlone {limit now : Nat} {l l' : SlidingWindowLimiter}
    {log log' : List Admission} {key : String} (h : LetThrough limit l last log)
    (h' : LetThrough limit l' last log') (hLast : last ≤ now)
    (hLog : log' = log.filter fun a => a.caller == some p)
    (hAlone : FillsAlone limit log now key (some p)) : l.hasRoom now key = l'.hasRoom now key := by
  rw [Bool.eq_iff_iff, h.hasRoom_iff hLast, h'.hasRoom_iff hLast, hLog, countUnder_filter]
  have hLe := ownUnder_le log now key (some p)
  unfold FillsAlone at hAlone
  omega

theorem Inv.later {now : Nat} (h : Inv s last) (hLast : last ≤ now) : Inv s now :=
  ⟨h.auth.later hLast, h.prepare.later hLast, fun e he => (h.passes e he).trans hLast⟩

/-- A request of another leaves the node that sees `p` alone as it is. -/
theorem Solo.step_other (h : Solo p s s' last) (hLast : last ≤ req.now)
    (hOther : cfg.caller req ≠ some p) : Solo p (s.step cfg req) s' req.now := by
  have hDrop : (cfg.caller req == some p) = false := beq_false_of_ne hOther
  refine ⟨h.all.step hLast, h.alone.later hLast, ?_, ?_⟩
  · show s'.admitted = (s.admitted ++ if s.admits cfg req then _ else _).filter _
    rw [List.filter_append, ← h.admitted]
    split <;> simp [hDrop]
  · show s'.prepared = (s.prepared ++ if s.admitsPrepare cfg req then _ else _).filter _
    rw [List.filter_append, ← h.prepared]
    split <;> simp [hDrop]

section Own

variable (hCaller : cfg.caller req = some p)
include hCaller

theorem principal_of_caller : cfg.principal req.toMwRequest = .ok p := by
  unfold MwConfig.caller at hCaller
  cases hPrincipal : cfg.principal req.toMwRequest with
  | error refusal => rw [hPrincipal] at hCaller; cases hCaller
  | ok q => rw [hPrincipal] at hCaller; exact congrArg _ (Option.some.inj hCaller)

variable (h : Solo p s s' last) (hLast : last ≤ req.now) (hOwn : OwnWindows cfg s req)
include h hLast hOwn

/-- The window of its key has room for both nodes or for neither. -/
theorem Solo.hasRoom_eq (hCounts : cfg.counts req = true) :
    s.authLimiter.hasRoom req.now (cfg.rateKey req.toMwRequest) =
      s'.authLimiter.hasRoom req.now (cfg.rateKey req.toMwRequest) := by
  unfold OwnWindows at hOwn
  rw [hCounts, principal_of_caller hCaller] at hOwn
  exact hasRoom_eq_of_fillsAlone h.all.auth h.alone.auth hLast h.admitted hOwn.1

/-- So has the window of the prepare routes, where the request comes to it. -/
theorem Solo.hasRoom_prepare_eq
    (hPassed : (handleRequest cfg s.toRateLimits req).1.passed.isSome = true)
    (hPrepares : req.prepares = true) :
    s.prepareLimiter.hasRoom req.now cfg.nodeId = s'.prepareLimiter.hasRoom req.now cfg.nodeId := by
  obtain ⟨q, hq⟩ := Option.isSome_iff_exists.mp hPassed
  obtain ⟨hCounts, -, hPrincipal, hRole⟩ := handleRequest_passed_iff.mp hq
  obtain rfl : q = p := Except.ok.inj (hPrincipal.symm.trans (principal_of_caller hCaller))
  unfold OwnWindows at hOwn
  rw [hCounts, hPrincipal] at hOwn
  exact hasRoom_eq_of_fillsAlone h.all.prepare h.alone.prepare hLast h.prepared
    ((hOwn.2 hRole).2 hPrepares)

/-- Both nodes answer alike. -/
theorem Solo.answer_eq :
    (handleRequest cfg s.toRateLimits req).1 = (handleRequest cfg s'.toRateLimits req).1 := by
  refine handleRequest_congr (fun hCounts => ?_) fun hPassed hPrepares => ?_
  · exact h.all.auth.check_congr h.alone.auth (h.hasRoom_eq hCaller hLast hOwn hCounts)
  · exact h.all.prepare.check_congr h.alone.prepare
      (h.hasRoom_prepare_eq hCaller hLast hOwn hPassed hPrepares)

/-- A principal with windows of its own is answered as if it were alone. -/
theorem Solo.step : Solo p (s.step cfg req) (s'.step cfg req) req.now := by
  have hKeep : (cfg.caller req == some p) = true := beq_iff_eq.mpr hCaller
  -- both nodes let this request through, or neither does
  have hAdmits : s.admits cfg req = s'.admits cfg req := by
    unfold admits
    cases hCounts : cfg.counts req with
    | false => rw [Bool.false_and, Bool.false_and]
    | true => rw [h.hasRoom_eq hCaller hLast hOwn hCounts]
  have hAdmitsPrepare : s.admitsPrepare cfg req = s'.admitsPrepare cfg req := by
    unfold admitsPrepare
    rw [← h.answer_eq hCaller hLast hOwn]
    cases hReached : (handleRequest cfg s.toRateLimits req).1.passed.isSome && req.prepares with
    | false => rw [Bool.false_and, Bool.false_and]
    | true =>
      obtain ⟨hPassed, hPrepares⟩ := Bool.and_eq_true_iff.mp hReached
      rw [h.hasRoom_prepare_eq hCaller hLast hOwn hPassed hPrepares]
  refine ⟨h.all.step hLast, h.alone.step hLast, ?_, ?_⟩
  · show s'.admitted ++ (if s'.admits cfg req then _ else _) =
      (s.admitted ++ if s.admits cfg req then _ else _).filter _
    rw [List.filter_append, ← h.admitted, ← hAdmits]
    split <;> simp [hKeep]
  · show s'.prepared ++ (if s'.admitsPrepare cfg req then _ else _) =
      (s.prepared ++ if s.admitsPrepare cfg req then _ else _).filter _
    rw [List.filter_append, ← h.prepared, ← hAdmitsPrepare]
    split <;> simp [hKeep]

end Own

/-! ### Along a run -/

/-- The requests come at nondecreasing instants. -/
def Ordered (reqs : List TimedRequest) : Prop := reqs.Pairwise fun r r' => r.now ≤ r'.now

instance (reqs : List TimedRequest) : Decidable (Ordered reqs) :=
  inferInstanceAs (Decidable (reqs.Pairwise _))

theorem atMost_run {reqs : List TimedRequest} (h : Inv s last) (hAtMost : s.AtMost)
    (hLast : ∀ r ∈ reqs, last ≤ r.now) (hOrdered : Ordered reqs)
    (hOwn : Runs.EveryStep (RateNode.step cfg) (OwnWindows cfg) s reqs) :
    (Runs.run (RateNode.step cfg) s reqs).AtMost := by
  induction reqs generalizing s last with
  | nil => exact hAtMost
  | cons r rest ih =>
    obtain ⟨hHead, hRest⟩ := List.pairwise_cons.mp hOrdered
    have hNow := hLast r List.mem_cons_self
    exact ih (h.step hNow) (atMost_step h hNow hOwn.1 hAtMost) hHead hRest hOwn.2

/-- Along a run, the node that sees `p` alone answers `p` alike. -/
theorem Solo.run {reqs : List TimedRequest} (h : Solo p s s' last)
    (hLast : ∀ r ∈ reqs, last ≤ r.now) (hOrdered : Ordered reqs)
    (hOwn : Runs.EveryStep (RateNode.step cfg) (OwnWindows cfg) s reqs) {bound : Nat}
    (hBound : ∀ r ∈ reqs, r.now ≤ bound) (hLastBound : last ≤ bound) :
    Solo p (Runs.run (RateNode.step cfg) s reqs)
      (Runs.run (RateNode.step cfg) s' (reqs.filter fun r => cfg.caller r == some p)) bound := by
  induction reqs generalizing s s' last with
  | nil => exact ⟨h.all.later hLastBound, h.alone.later hLastBound, h.admitted, h.prepared⟩
  | cons r rest ih =>
    obtain ⟨hHead, hRest⟩ := List.pairwise_cons.mp hOrdered
    have hNow := hLast r List.mem_cons_self
    have hRestBound : ∀ r ∈ rest, r.now ≤ bound := fun r' hr' => hBound r' (List.mem_cons_of_mem _ hr')
    -- a request of the principal reaches both nodes, another's only the first
    by_cases hCaller : cfg.caller r = some p
    · rw [List.filter_cons_of_pos (by simpa using hCaller)]
      exact ih (h.step hCaller hNow hOwn.1) hHead hRest hOwn.2 hRestBound
        (hBound r List.mem_cons_self)
    · rw [List.filter_cons_of_neg (by simpa using hCaller)]
      exact ih (h.step_other hNow hCaller) hHead hRest hOwn.2 hRestBound
        (hBound r List.mem_cons_self)

end RateNode

open RateNode

/--
**Limits per principal.** Along every run of requests at nondecreasing instants,
each of which finds windows that its principal fills alone, a principal passes
sixty times at most in a minute, and no one is refused for rate on account of
others.
-/
theorem perPrincipal_of_ownWindows (cfg : MwConfig) (reqs : List TimedRequest)
    (hOrdered : RateNode.Ordered reqs)
    (hOwn : Runs.EveryStep (RateNode.step cfg) (OwnWindows cfg) .start reqs) :
    PerPrincipal cfg reqs where
  atMost := atMost_run (inv_start 0) (by intro p start; simp [RateNode.start])
    (fun r _ => Nat.zero_le r.now) hOrdered hOwn
  own before req after p hReqs hCaller hLimited := by
    subst hReqs
    obtain ⟨hBefore, -, hSplit⟩ := List.pairwise_append.mp hOrdered
    obtain ⟨hOwnBefore, hOwnReq, -⟩ := (Runs.everyStep_append _ _ _ _ _).mp hOwn
    have hSolo := (solo_start p 0).run (fun r _ => Nat.zero_le r.now) hBefore hOwnBefore
      (fun r hr => hSplit r hr req List.mem_cons_self) (Nat.zero_le req.now)
    rw [← hSolo.answer_eq hCaller (le_refl _) hOwnReq]
    exact hLimited

/-! ## Runs of two principals -/

/-- `vault-1`, over mTLS, with two peers. -/
def vault1Mw : MwConfig where
  authMode := .mutualTls
  nodeId := "vault-1"
  seedPeers := ["vault-2", "vault-3"]
  expectedToken := ""

/-- A prepare request of a vault under a header. -/
def prepareOf (vault : String) (header : Option String) : TimedRequest where
  path := "/v1/anti-nonce/prepare"
  token := none
  nodeIdHeader := header
  peerCert := some (.ok (["spiffe://kerosene.lab/vault/" ++ vault], []))
  now := 0
  method := .post
  bodyParses := true

theorem perPrincipal_headers :
    PerPrincipal vault1Mw [prepareOf "vault-2" (some "vault-2"), prepareOf "vault-3" (some "vault-3")] :=
  perPrincipal_of_ownWindows vault1Mw
    [prepareOf "vault-2" (some "vault-2"), prepareOf "vault-3" (some "vault-3")]
    (by decide +kernel) (by decide +kernel)

/-- Thirty prepares of one peer, and the prepare of another. -/
def crowdedPrepares : List TimedRequest := List.replicate 30 (prepareOf "vault-2" (some "vault-2"))

/-- The other is refused for rate, and would not be alone. -/
theorem perPrincipal_fails : RateNode.Ordered (crowdedPrepares ++ [prepareOf "vault-3" (some "vault-3")]) ∧
    ¬ PerPrincipal vault1Mw (crowdedPrepares ++ [prepareOf "vault-3" (some "vault-3")]) := by
  refine ⟨by decide +kernel, fun h => ?_⟩
  have hAlone := h.own crowdedPrepares (prepareOf "vault-3" (some "vault-3")) []
    ⟨.vault, "vault-3", false⟩ rfl (by decide +kernel) (by decide +kernel)
  exact absurd hAlone (by decide +kernel)

end KeroseneVault
