import KeroseneVault.Ledger.Transport
import KeroseneVault.Session.AntiNonce

/-!
# Retried prepares

A coordinator asks its peers for a durable prepare, one after the other, and
asks again when a request or a response is lost. A peer checks and inserts on
every request that reaches it, so that a second request for one id finds it burned by
the first. A response may also be lost in part: its status gets back, and its body does
not. The transport reads the empty text instead, which is no answer to the prepare, and
gives the whole round up.

From the coordinator's side a lost answer and a lost request look the same, and it asks
again in both cases. From the peer's side they differ: in the first the id is already
burned, and the second request is answered as a replay. The fates of the requests say which
it is, so that what the coordinator reads can be computed from them and from the state of
the peer before the first request.

* `askPeer`, `askPeers` — the loop both transports run;
* `Fate` — what becomes of one request; `Prepares` — a peer that handles it;
* `Answers`, `Doubled` — whether an answer gets back, and whether that answer is
  to a second prepare;
* `CutShort` — a success gets back without its body.

Main results:

* `askPeer_fates` — what a peer's acknowledgement comes to;
* `askPeers_fates`, `askPeers_cutShort` — and those of all peers;
* `claims_retried_iff` — a claim that enough peers answer returns Ok exactly when
  none of those answers is to a second prepare, and none is cut short.
-/

namespace KeroseneVault

/-! ## The transports -/

section Ask

-- what a transport makes of the body of a success answer
variable (parse : String → Except DomainError Bool)

/-- The attempts on one peer, from number `attempt` on, `left` of them. -/
def askPeer (reply : Nat → PostReply) (attempt : Nat) : Nat → Except DomainError (Option Bool)
  | 0 => .ok none
  | left + 1 =>
    match reply attempt with
    | .response status body =>
      if isSuccess status then
        match parse body with
        | .error e => .error e
        | .ok seen => .ok (some seen)
      else if !shouldRetryStatus status then .ok none
      else askPeer reply (attempt + 1) left
    | .sendFails => askPeer reply (attempt + 1) left

/-- The loop over the peers, from number `i` on. -/
def askPeers (attempts : Nat) (reply : Nat → Nat → PostReply) (i : Nat) :
    List String → Except DomainError (List Bool)
  | [] => .ok []
  | _ :: urls =>
    match askPeer parse (reply i) 0 attempts with
    | .error e => .error e
    | .ok ack =>
      match askPeers attempts reply (i + 1) urls with
      | .error e => .error e
      | .ok acks => .ok (ack.toList ++ acks)

end Ask

theorem preparePeer_eq (decode : String → Option Bool) (reply : Nat → PostReply)
    (attempt left : Nat) :
    preparePeer decode reply attempt left =
      (askPeer (parseAlreadySeen decode) reply attempt left).map
        (Option.map IntentPrepareAck.mk) := by
  induction left generalizing attempt with
  | zero => rfl
  | succ left ih =>
    unfold preparePeer askPeer
    cases reply attempt with
    | sendFails => exact ih (attempt + 1)
    | response status body =>
      dsimp only
      split
      · cases parseAlreadySeen decode body with
        | error e => rfl
        | ok seen => rfl
      · split
        · rfl
        · exact ih (attempt + 1)

/-- The transport of the bucket ledger runs this loop. -/
theorem preparePeers_eq (decode : String → Option Bool) (attempts : Nat)
    (reply : Nat → Nat → PostReply) (i : Nat) (urls : List String) :
    preparePeers decode attempts reply i urls =
      (askPeers (parseAlreadySeen decode) attempts reply i urls).map
        (List.map IntentPrepareAck.mk) := by
  induction urls generalizing i with
  | nil => rfl
  | cons url urls ih =>
    rw [preparePeers, askPeers, preparePeer_eq, ih (i + 1)]
    cases askPeer (parseAlreadySeen decode) (reply i) 0 attempts with
    | error e => rfl
    | ok ack =>
      cases askPeers (parseAlreadySeen decode) attempts reply (i + 1) urls with
      | error e => rfl
      | ok acks =>
        show Except.ok _ = Except.ok _
        rw [List.map_append]
        cases ack with
        | none => rfl
        | some seen => rfl

/-- `HttpAntiNonceTransport`, with the setting of `peer_http` the loop reads. -/
structure HttpAntiNonceTransport where
  peerPrepareUrls : List String
  maxRetries : Nat

def parseSessionSeen (decode : String → Option Bool) (body : String) : Except DomainError Bool :=
  match decode body with
  | some seen => .ok seen
  | none => .error (.thresholdError "anti-nonce peer response missing already_seen (fail-closed)")

/-- `HttpAntiNonceTransport::prepare_on_peers`. -/
def prepareOnPeers (decode : String → Option Bool) (T : HttpAntiNonceTransport) (net : PrepareNet) :
    Except DomainError (List PrepareAck) :=
  if T.peerPrepareUrls = [] then .ok []
  else
    match net.client with
    | .error e => .error e
    | .ok () =>
      match askPeers (parseSessionSeen decode) (max T.maxRetries 1) net.reply 0
          T.peerPrepareUrls with
      | .error e => .error e
      | .ok acks => .ok (acks.map PrepareAck.mk)

/-! ## The peers -/

/-- The body of a peer's answer. -/
def prepareBody (alreadySeen : Bool) : String :=
  s!"\x7b\"ok\":true,\"already_seen\":{alreadySeen}\x7d"

/-- What becomes of one request: it is lost on the way, the rate limiter refuses
it, it is handled and the response lost, it is handled and the body of the response is
lost, or it is handled and answered. A status that is tried again (an error of a server in
between) is a loss like any other: of the request, or of the response to it. -/
inductive Fate where
  | requestLost
  | limited
  | responseLost (disk : Disk)
  | bodyLost (disk : Disk)
  | answered (disk : Disk)

/-- The coordinator sees nothing of the request. -/
def Fate.lost : Fate → Bool
  | .requestLost => true
  | .responseLost _ => true
  | _ => false

section Peer

variable {σ : Type} (handle : Disk → σ → Except DomainError Bool × σ)

/-- The response to a request that is handled; the text of an error is not read. -/
def peerResponse (answer : Except DomainError Bool) : PostReply :=
  match answer with
  | .ok seen => .response 200 (prepareBody seen)
  | .error _ => .response 400 ""

/-- `text().unwrap_or_default()`, where the body is lost. -/
def PostReply.bodyless : PostReply → PostReply
  | .response status _ => .response status ""
  | .sendFails => .sendFails

/-- The reply to one request, and the peer after it. -/
def Fate.attempt (s : σ) : Fate → PostReply × σ
  | .requestLost => (.sendFails, s)
  | .limited => (.response 429 "", s)
  | .responseLost disk => (.sendFails, (handle disk s).2)
  | .bodyLost disk => ((peerResponse (handle disk s).1).bodyless, (handle disk s).2)
  | .answered disk => (peerResponse (handle disk s).1, (handle disk s).2)

/-- The peer before each request. -/
def peerAt (s : σ) (fates : Nat → Fate) : Nat → σ
  | 0 => s
  | k + 1 => ((fates k).attempt handle (peerAt s fates k)).2

/-- The reply to each request. -/
def peerReply (s : σ) (fates : Nat → Fate) (k : Nat) : PostReply :=
  ((fates k).attempt handle (peerAt handle s fates k)).1

end Peer

/-- `bind_session_to_intent`. -/
def bindSessionToIntent (sessionId intentId : String) : Outcome :=
  let intentId := strTrim intentId
  let sessionId := strTrim sessionId
  if intentId = "" ∨ sessionId = "" then
    .error (.nonceReuse "session_id and intent_id required for anti-nonce prepare")
  else if sessionId = intentId ∨ (intentId ++ ":").toList.isPrefixOf sessionId.toList then .ok ()
  else .error (.nonceReuse s!"session_id {sessionId} not bound to intent {intentId}")

/-- `v1_intent_consume_prepare` of a durable prepare. -/
def handleConsumePrepare (id : String) (disk : Disk) (l : PersistedBucketLedger) :
    Except DomainError Bool × PersistedBucketLedger := l.prepareConsume disk id

/-- `v1_anti_nonce_prepare` of a durable prepare; the coordinator sends the
session id as the intent id too. -/
def handleSessionPrepare (sessionId : String) (disk : Disk) (l : PersistedAntiNonce) :
    Except DomainError Bool × PersistedAntiNonce :=
  match bindSessionToIntent sessionId sessionId with
  | .error e => (.error e, l)
  | .ok () => l.prepare disk sessionId

/-! ## What a peer acknowledges -/

/-- A peer that checks and inserts: it says so when the id is burned, and burns
it, or fails, when it is not. -/
structure Prepares {σ : Type} (handle : Disk → σ → Except DomainError Bool × σ)
    (burned : σ → Prop) (takes : Disk → Prop) : Prop where
  seen : ∀ disk s, burned s → handle disk s = (.ok true, s)
  burns : ∀ disk s, ¬ burned s → takes disk →
    (handle disk s).1 = .ok false ∧ burned (handle disk s).2
  fails : ∀ disk s, ¬ burned s → ¬ takes disk →
    (∃ e, (handle disk s).1 = .error e) ∧ ¬ burned (handle disk s).2

/-- Some attempt is answered after attempts that were lost, and the answer is an
acknowledgement: its own burn, or one before it. -/
def Answers (takes : Disk → Prop) (fates : Nat → Fate) (attempts : Nat) : Prop :=
  ∃ k < attempts, (∀ j < k, (fates j).lost = true) ∧ ∃ disk, fates k = .answered disk ∧
    (takes disk ∨ ∃ j < k, ∃ disk', fates j = .responseLost disk' ∧ takes disk')

/-- The answer that gets back is to a request after one that was handled. -/
def Doubled (takes : Disk → Prop) (fates : Nat → Fate) (attempts : Nat) : Prop :=
  ∃ k < attempts, (∀ j < k, (fates j).lost = true) ∧ (∃ disk, fates k = .answered disk) ∧
    ∃ j < k, ∃ disk', fates j = .responseLost disk' ∧ takes disk'

/-- After attempts that were lost, a success gets back without its body: of the peer's
own burn, or of one before it. -/
def CutShort (takes : Disk → Prop) (fates : Nat → Fate) (attempts : Nat) : Prop :=
  ∃ k < attempts, (∀ j < k, (fates j).lost = true) ∧ ∃ disk, fates k = .bodyLost disk ∧
    (takes disk ∨ ∃ j < k, ∃ disk', fates j = .responseLost disk' ∧ takes disk')

theorem askPeer_skip (parse : String → Except DomainError Bool) {reply : Nat → PostReply}
    (attempt k : Nat) (h : ∀ j < k, reply (attempt + j) = .sendFails) (left : Nat) :
    askPeer parse reply attempt (k + left) = askPeer parse reply (attempt + k) left := by
  induction k generalizing attempt with
  | zero => rw [Nat.zero_add, Nat.add_zero]
  | succ k ih =>
    have hFirst : reply attempt = .sendFails := h 0 (by omega)
    have hRest : ∀ j < k, reply (attempt + 1 + j) = .sendFails := by
      intro j hj
      have hNext := h (j + 1) (by omega)
      rwa [show attempt + (j + 1) = attempt + 1 + j by omega] at hNext
    rw [show k + 1 + left = (k + left) + 1 by omega, askPeer, hFirst]
    dsimp only
    rw [ih _ hRest, show attempt + 1 + k = attempt + (k + 1) by omega]

section Fates

variable {σ : Type} {handle : Disk → σ → Except DomainError Bool × σ} {burned : σ → Prop}
  {takes : Disk → Prop}

theorem peerReply_of_lost (handle : Disk → σ → Except DomainError Bool × σ) (s : σ)
    {fates : Nat → Fate} {k : Nat} (h : (fates k).lost = true) :
    peerReply handle s fates k = .sendFails := by
  unfold peerReply
  cases hFate : fates k with
  | requestLost => rfl
  | responseLost disk => rfl
  | limited => rw [hFate] at h; cases h
  | bodyLost disk => rw [hFate] at h; cases h
  | answered disk => rw [hFate] at h; cases h

/-- After requests that were lost, the id is burned exactly when one of them was
handled and taken. -/
theorem burned_peerAt_iff (hPrepares : Prepares handle burned takes) {s : σ} (hFree : ¬ burned s)
    {fates : Nat → Fate} {k : Nat} (h : ∀ j < k, (fates j).lost = true) :
    burned (peerAt handle s fates k) ↔ ∃ j < k, ∃ disk, fates j = .responseLost disk ∧ takes disk := by
  induction k with
  | zero => exact ⟨fun hBurned => absurd hBurned hFree, fun ⟨j, hj, _⟩ => absurd hj (by omega)⟩
  | succ k ih =>
    have ih := ih fun j hj => h j (by omega)
    have hSplit : (∃ j < k + 1, ∃ disk, fates j = .responseLost disk ∧ takes disk) ↔
        (∃ j < k, ∃ disk, fates j = .responseLost disk ∧ takes disk) ∨
          ∃ disk, fates k = .responseLost disk ∧ takes disk := by
      constructor
      · rintro ⟨j, hj, hFate⟩
        rcases Nat.lt_succ_iff_lt_or_eq.mp hj with hLt | rfl
        · exact .inl ⟨j, hLt, hFate⟩
        · exact .inr hFate
      · rintro (⟨j, hj, hFate⟩ | hFate)
        · exact ⟨j, by omega, hFate⟩
        · exact ⟨k, by omega, hFate⟩
    rw [hSplit, ← ih, peerAt]
    have hLost := h k (by omega)
    cases hFate : fates k with
    | requestLost => simp [Fate.attempt]
    | limited => rw [hFate] at hLost; cases hLost
    | bodyLost disk => rw [hFate] at hLost; cases hLost
    | answered disk => rw [hFate] at hLost; cases hLost
    | responseLost disk =>
      simp only [Fate.attempt, Fate.responseLost.injEq, exists_eq_left']
      -- the peer handled the request: it burns a free id when its disk takes the line
      by_cases hBurned : burned (peerAt handle s fates k)
      · rw [hPrepares.seen disk _ hBurned]
        simp [hBurned]
      by_cases hTakes : takes disk
      · simp [(hPrepares.burns disk _ hBurned hTakes).2, hTakes]
      · simp [(hPrepares.fails disk _ hBurned hTakes).2, hBurned, hTakes]

/-- All requests are lost, or one is the first that is not. -/
theorem lost_or_first (fates : Nat → Fate) (attempts : Nat) :
    (∀ j < attempts, (fates j).lost = true) ∨
      ∃ k < attempts, (fates k).lost = false ∧ ∀ j < k, (fates j).lost = true := by
  by_cases hAll : ∀ j < attempts, (fates j).lost = true
  · exact .inl hAll
  have hSome : ∃ k, k < attempts ∧ (fates k).lost = false := by
    simpa using hAll
  classical
  obtain ⟨hk, hFirst⟩ := Nat.find_spec hSome
  refine .inr ⟨Nat.find hSome, hk, hFirst, fun j hj => ?_⟩
  by_contra hNot
  exact Nat.find_min hSome hj ⟨by omega, Bool.eq_false_of_not_eq_true hNot⟩

/-- The first request that is not lost decides. -/
theorem first_decides {fates : Nat → Fate} {attempts k : Nat} (hk : k < attempts)
    (hFirst : (fates k).lost = false) (hBefore : ∀ j < k, (fates j).lost = true)
    {Q : Nat → Prop} (hQ : ∀ j, Q j → (fates j).lost = false) :
    (∃ j < attempts, (∀ i < j, (fates i).lost = true) ∧ Q j) ↔ Q k := by
  constructor
  · rintro ⟨j, -, hLost, hHere⟩
    rcases lt_trichotomy j k with hLt | rfl | hGt
    · have hOther := hQ j hHere
      rw [hBefore j hLt] at hOther
      cases hOther
    · exact hHere
    · rw [hLost k hGt] at hFirst
      cases hFirst
  · exact fun hHere => ⟨k, hk, hBefore, hHere⟩

/-- **One peer.** It fails the round exactly when its success is cut short. Else it
acknowledges exactly when an answer gets back to the coordinator, and says the id was
seen exactly when that answer is to a second prepare. -/
theorem askPeer_fates (hPrepares : Prepares handle burned takes)
    {parse : String → Except DomainError Bool} (hParse : ∀ seen, parse (prepareBody seen) = .ok seen)
    (hEmpty : ∃ e, parse "" = .error e) {s : σ} (hFree : ¬ burned s) (fates : Nat → Fate)
    (attempts : Nat) :
    (∃ e, askPeer parse (peerReply handle s fates) 0 attempts = .error e ∧
      CutShort takes fates attempts) ∨
    (askPeer parse (peerReply handle s fates) 0 attempts = .ok none ∧
      ¬ CutShort takes fates attempts ∧ ¬ Answers takes fates attempts) ∨
    ∃ seen, askPeer parse (peerReply handle s fates) 0 attempts = .ok (some seen) ∧
      ¬ CutShort takes fates attempts ∧ Answers takes fates attempts ∧
      (seen = true ↔ Doubled takes fates attempts) := by
  -- the first answer that gets back decides
  rcases lost_or_first fates attempts with hAll | ⟨k, hk, hFirst, hBefore⟩
  · -- nothing gets back
    refine .inr (.inl ⟨?_, ?_, ?_⟩)
    · have hSkip := askPeer_skip parse 0 attempts
        (fun j hj => peerReply_of_lost handle s (by simpa using hAll j hj)) 0
      exact hSkip
    · rintro ⟨k, hk, -, disk, hFate, -⟩
      have hLost := hAll k hk
      rw [hFate] at hLost
      cases hLost
    · rintro ⟨k, hk, -, disk, hFate, -⟩
      have hLost := hAll k hk
      rw [hFate] at hLost
      cases hLost
  have hSkip : askPeer parse (peerReply handle s fates) 0 attempts =
      askPeer parse (peerReply handle s fates) k (attempts - k) := by
    have hLost := askPeer_skip parse 0 k (fun j hj =>
      peerReply_of_lost handle s (by simpa using hBefore j hj)) (attempts - k)
    rwa [show k + (attempts - k) = attempts by omega, Nat.zero_add] at hLost
  have hCut : CutShort takes fates attempts ↔ ∃ disk, fates k = .bodyLost disk ∧
      (takes disk ∨ burned (peerAt handle s fates k)) := by
    rw [burned_peerAt_iff hPrepares hFree hBefore]
    exact first_decides hk hFirst hBefore fun j ⟨disk, hFate, _⟩ => by rw [hFate]; rfl
  have hAnswers : Answers takes fates attempts ↔ ∃ disk, fates k = .answered disk ∧
      (takes disk ∨ burned (peerAt handle s fates k)) := by
    rw [burned_peerAt_iff hPrepares hFree hBefore]
    exact first_decides hk hFirst hBefore fun j ⟨disk, hFate, _⟩ => by rw [hFate]; rfl
  have hDoubled : Doubled takes fates attempts ↔ (∃ disk, fates k = .answered disk) ∧
      burned (peerAt handle s fates k) := by
    rw [burned_peerAt_iff hPrepares hFree hBefore]
    exact first_decides hk hFirst hBefore fun j ⟨⟨disk, hFate⟩, _⟩ => by rw [hFate]; rfl
  rw [hSkip, hCut, hAnswers, hDoubled, show attempts - k = (attempts - k - 1) + 1 by omega, askPeer,
    peerReply]
  cases hFate : fates k with
  | requestLost => rw [hFate] at hFirst; cases hFirst
  | responseLost disk => rw [hFate] at hFirst; cases hFirst
  | limited => exact .inr (.inl ⟨rfl, by simp, by simp⟩)
  | bodyLost disk =>
    dsimp only [Fate.attempt]
    by_cases hSeen : burned (peerAt handle s fates k)
    · obtain ⟨e, hError⟩ := hEmpty
      rw [hPrepares.seen disk _ hSeen]
      exact .inl ⟨e, by simp [peerResponse, PostReply.bodyless, isSuccess, hError], disk, rfl,
        .inr hSeen⟩
    by_cases hTakes : takes disk
    · obtain ⟨e, hError⟩ := hEmpty
      rw [(hPrepares.burns disk _ hSeen hTakes).1]
      exact .inl ⟨e, by simp [peerResponse, PostReply.bodyless, isSuccess, hError], disk, rfl,
        .inl hTakes⟩
    · -- the peer refuses, and the body of a refusal is not read
      obtain ⟨⟨e, hError⟩, -⟩ := hPrepares.fails disk _ hSeen hTakes
      rw [hError]
      refine .inr (.inl ⟨rfl, ?_, by simp⟩)
      rintro ⟨disk', hSame, hAck⟩
      obtain rfl := Fate.bodyLost.inj hSame
      exact hAck.elim hTakes hSeen
  | answered disk =>
    dsimp only [Fate.attempt]
    by_cases hSeen : burned (peerAt handle s fates k)
    · rw [hPrepares.seen disk _ hSeen]
      exact .inr (.inr ⟨true, by simp [peerResponse, isSuccess, hParse], by simp,
        ⟨disk, rfl, .inr hSeen⟩, iff_of_true rfl ⟨⟨disk, rfl⟩, hSeen⟩⟩)
    by_cases hTakes : takes disk
    · rw [(hPrepares.burns disk _ hSeen hTakes).1]
      exact .inr (.inr ⟨false, by simp [peerResponse, isSuccess, hParse], by simp,
        ⟨disk, rfl, .inl hTakes⟩, iff_of_false (by simp) fun h => hSeen h.2⟩)
    · obtain ⟨⟨e, hError⟩, -⟩ := hPrepares.fails disk _ hSeen hTakes
      rw [hError]
      refine .inr (.inl ⟨rfl, by simp, ?_⟩)
      rintro ⟨disk', hSame, hAck⟩
      obtain rfl := Fate.answered.inj hSame
      exact hAck.elim hTakes hSeen

/-- **All peers, one of them cut short.** The round is given up. -/
theorem askPeers_cutShort (hPrepares : Prepares handle burned takes)
    {parse : String → Except DomainError Bool} (hParse : ∀ seen, parse (prepareBody seen) = .ok seen)
    (hEmpty : ∃ e, parse "" = .error e) {peers : Nat → σ} (hFree : ∀ i, ¬ burned (peers i))
    (fates : Nat → Nat → Fate) (attempts i : Nat) (urls : List String)
    (hCut : ∃ j, i ≤ j ∧ j < i + urls.length ∧ CutShort takes (fates j) attempts) :
    ∃ e, askPeers parse attempts (fun j => peerReply handle (peers j) (fates j)) i urls =
      .error e := by
  induction urls generalizing i with
  | nil =>
    obtain ⟨j, hLe, hLt, -⟩ := hCut
    rw [List.length_nil] at hLt
    omega
  | cons url urls ih =>
    obtain ⟨j, hLe, hLt, hHere⟩ := hCut
    rw [List.length_cons] at hLt
    -- it is the first peer, or one after it
    have hLater : ¬ CutShort takes (fates i) attempts → ∃ e, askPeers parse attempts
        (fun j => peerReply handle (peers j) (fates j)) (i + 1) urls = .error e := by
      intro hNot
      have hNe : j ≠ i := by
        rintro rfl
        exact hNot hHere
      exact ih (i + 1) ⟨j, by omega, by omega, hHere⟩
    rw [askPeers]
    rcases askPeer_fates hPrepares hParse hEmpty (hFree i) (fates i) attempts with
      ⟨e, hAck, -⟩ | ⟨hAck, hNot, -⟩ | ⟨seen, hAck, hNot, -⟩
    · exact ⟨e, by rw [hAck]⟩
    · obtain ⟨e, hRest⟩ := hLater hNot
      exact ⟨e, by rw [hAck, hRest]⟩
    · obtain ⟨e, hRest⟩ := hLater hNot
      exact ⟨e, by rw [hAck, hRest]⟩

/-- **All peers, none of them cut short.** The acknowledgements are as many as the peers
whose answer gets back, and one says the id was seen exactly when one of those answers is
to a second prepare. -/
theorem askPeers_fates (hPrepares : Prepares handle burned takes)
    {parse : String → Except DomainError Bool} (hParse : ∀ seen, parse (prepareBody seen) = .ok seen)
    (hEmpty : ∃ e, parse "" = .error e) {peers : Nat → σ} (hFree : ∀ i, ¬ burned (peers i))
    (fates : Nat → Nat → Fate) (attempts i : Nat) (urls : List String)
    (hWhole : ∀ j, i ≤ j → j < i + urls.length → ¬ CutShort takes (fates j) attempts) :
    ∃ (acks : List Bool) (answering : List Nat),
      askPeers parse attempts (fun j => peerReply handle (peers j) (fates j)) i urls = .ok acks ∧
      (true ∈ acks ↔ ∃ j, i ≤ j ∧ j < i + urls.length ∧ Doubled takes (fates j) attempts) ∧
      acks.length = answering.length ∧ answering.Nodup ∧
      ∀ j, j ∈ answering ↔ i ≤ j ∧ j < i + urls.length ∧ Answers takes (fates j) attempts := by
  induction urls generalizing i with
  | nil =>
    refine ⟨[], [], rfl, ?_, rfl, List.nodup_nil, fun j => ?_⟩
    · simp only [List.not_mem_nil, List.length_nil, Nat.add_zero, false_iff, not_exists]
      rintro j ⟨hLe, hLt, -⟩
      omega
    · simp only [List.not_mem_nil, List.length_nil, Nat.add_zero, false_iff]
      rintro ⟨hLe, hLt, -⟩
      omega
  | cons url urls ih =>
    obtain ⟨acks, answering, hRest, hSeen, hLength, hNodup, hMem⟩ := ih (i + 1) fun j hLe hLt =>
      hWhole j (by omega) (by rw [List.length_cons]; omega)
    have hLater : i ∉ answering := fun hIn => by
      have hLe := ((hMem i).mp hIn).1
      omega
    -- the first peer, and those after it
    have hSplit : ∀ (Q : Nat → Prop), (∃ j, i ≤ j ∧ j < i + (url :: urls).length ∧ Q j) ↔
        Q i ∨ ∃ j, i + 1 ≤ j ∧ j < i + 1 + urls.length ∧ Q j := by
      intro Q
      rw [List.length_cons]
      constructor
      · rintro ⟨j, hLe, hLt, hQ⟩
        rcases Nat.eq_or_lt_of_le hLe with rfl | hLater
        · exact .inl hQ
        · exact .inr ⟨j, hLater, by omega, hQ⟩
      · rintro (hQ | ⟨j, hLe, hLt, hQ⟩)
        · exact ⟨i, by omega, by omega, hQ⟩
        · exact ⟨j, by omega, by omega, hQ⟩
    have hDoubled : Doubled takes (fates i) attempts → Answers takes (fates i) attempts := by
      rintro ⟨k, hk, hLost, ⟨disk, hFate⟩, hEarlier⟩
      exact ⟨k, hk, hLost, disk, hFate, .inr hEarlier⟩
    rw [askPeers]
    rcases askPeer_fates hPrepares hParse hEmpty (hFree i) (fates i) attempts with
      ⟨e, -, hCut⟩ | ⟨hAck, -, hNone⟩ | ⟨seen, hAck, -, hAnswers, hSeenIff⟩
    · exact absurd hCut (hWhole i le_rfl (by rw [List.length_cons]; omega))
    · rw [hAck, hRest]
      refine ⟨acks, answering, rfl, ?_, hLength, hNodup, fun j => ?_⟩
      · rw [hSplit, hSeen]
        exact (or_iff_right fun hD => hNone (hDoubled hD)).symm
      · rw [hMem, List.length_cons]
        constructor
        · exact fun h => ⟨by omega, by omega, h.2.2⟩
        · rintro ⟨hLe, hLt, hA⟩
          have hNe : j ≠ i := by
            rintro rfl
            exact hNone hA
          exact ⟨by omega, by omega, hA⟩
    · rw [hAck, hRest]
      refine ⟨seen :: acks, i :: answering, rfl, ?_, by rw [List.length_cons, List.length_cons,
        hLength], List.nodup_cons.mpr ⟨hLater, hNodup⟩, fun j => ?_⟩
      · rw [hSplit, List.mem_cons, hSeen, ← hSeenIff, eq_comm]
      · rw [List.mem_cons, hMem, List.length_cons]
        constructor
        · rintro (rfl | h)
          · exact ⟨by omega, by omega, hAnswers⟩
          · exact ⟨by omega, by omega, h.2.2⟩
        · rintro ⟨hLe, hLt, hA⟩
          rcases Nat.eq_or_lt_of_le hLe with rfl | hGt
          · exact .inl rfl
          · exact .inr ⟨hGt, by omega, hA⟩

end Fates

/-! ## Claims -/

/-- Enough peers answer for a quorum of `t`, the coordinator counted. -/
def EnoughAnswer (takes : Disk → Prop) (t n attempts : Nat) (fates : Nat → Nat → Fate) : Prop :=
  ∃ answering : List Nat, answering.Nodup ∧
    (∀ j ∈ answering, j < n ∧ Answers takes (fates j) attempts) ∧ t ≤ 1 + answering.length

/-- A peer that takes the line of a prepare. -/
def TakesConsume (disk : Disk) : Prop := disk = .ok

/-- A peer that takes the line of a session's prepare, which it does not for a
blank id. -/
def TakesSession (sessionId : String) (disk : Disk) : Prop := disk = .ok ∧ strTrim sessionId ≠ ""

theorem prepares_consume (id : String) :
    Prepares (handleConsumePrepare id) (fun l => id ∈ l.inner.consumed) TakesConsume where
  seen disk l hSeen := by
    rcases PersistedBucketLedger.prepareConsume_cases disk id l with
      ⟨-, h⟩ | ⟨hFree, -⟩ | ⟨hFree, -⟩
    · exact h
    · exact absurd hSeen hFree
    · exact absurd hSeen hFree
  -- the append must go through
  burns disk l hFree hTakes := by
    rcases PersistedBucketLedger.prepareConsume_cases disk id l with
      ⟨hSeen, -⟩ | ⟨-, hDisk, -⟩ | ⟨-, -, h⟩
    · exact absurd hSeen hFree
    · exact absurd hTakes hDisk
    · rw [handleConsumePrepare, h]
      exact ⟨rfl, Finset.mem_insert_self ..⟩
  fails disk l hFree hTakes := by
    rcases PersistedBucketLedger.prepareConsume_cases disk id l with
      ⟨hSeen, -⟩ | ⟨-, -, e, log, -, h⟩ | ⟨-, hDisk, -⟩
    · exact absurd hSeen hFree
    · rw [handleConsumePrepare, h]
      exact ⟨⟨e, rfl⟩, hFree⟩
    · exact absurd hDisk hTakes

theorem prepares_session (sessionId : String) :
    Prepares (handleSessionPrepare sessionId) (fun l => sessionId ∈ l.inner ∧ strTrim sessionId ≠ "")
      (TakesSession sessionId) := by
  -- the id is bound to itself unless it is blank
  have hBlank : strTrim sessionId = "" → ∃ e, bindSessionToIntent sessionId sessionId = .error e :=
    fun h => ⟨_, by rw [bindSessionToIntent, if_pos (.inl h)]⟩
  have hBound : strTrim sessionId ≠ "" → bindSessionToIntent sessionId sessionId = .ok () := by
    intro h
    rw [bindSessionToIntent, if_neg (by simpa using h), if_pos (.inl rfl)]
  refine ⟨fun disk l hSeen => ?_, fun disk l hFree hTakes => ?_, fun disk l hFree hTakes => ?_⟩
  · rw [handleSessionPrepare, hBound hSeen.2]
    simp [PersistedAntiNonce.prepare, hSeen.1]
  · have hNot : sessionId ∉ l.inner := fun hIn => hFree ⟨hIn, hTakes.2⟩
    rw [handleSessionPrepare, hBound hTakes.2, hTakes.1]
    simp [PersistedAntiNonce.prepare, PersistedAntiNonce.appendId, hNot, hTakes.2]
  · by_cases hText : strTrim sessionId = ""
    · obtain ⟨e, hError⟩ := hBlank hText
      rw [handleSessionPrepare, hError]
      exact ⟨⟨e, rfl⟩, fun h => h.2 hText⟩
    have hNot : sessionId ∉ l.inner := fun hIn => hFree ⟨hIn, hText⟩
    have hDisk : disk ≠ .ok := fun h => hTakes ⟨h, hText⟩
    rw [handleSessionPrepare, hBound hText]
    cases disk with
    | ok => exact absurd rfl hDisk
    | _ => simp [PersistedAntiNonce.prepare, PersistedAntiNonce.appendId, hNot]

/-- No answer of the `n` peers is to a second prepare, and no success comes back without
its body. -/
def PlainAnswers (takes : Disk → Prop) (n attempts : Nat) (fates : Nat → Nat → Fate) : Prop :=
  ∀ i < n, ¬ Doubled takes (fates i) attempts ∧ ¬ CutShort takes (fates i) attempts

/-- What the acknowledgements of all peers come to: a round that is given up where one of
them is cut short, and else a list that passes the check exactly when enough peers answer
and none of them answers a second prepare. -/
theorem askPeers_passes {σ : Type} {handle : Disk → σ → Except DomainError Bool × σ}
    {burned : σ → Prop} {takes : Disk → Prop} (hPrepares : Prepares handle burned takes)
    {parse : String → Except DomainError Bool} (hParse : ∀ seen, parse (prepareBody seen) = .ok seen)
    (hEmpty : ∃ e, parse "" = .error e) {peers : Nat → σ} (hFree : ∀ i, ¬ burned (peers i))
    (fates : Nat → Nat → Fate) (t attempts : Nat) (urls : List String) :
    (¬ PlainAnswers takes urls.length attempts fates ∧ ∃ e,
      askPeers parse attempts (fun i => peerReply handle (peers i) (fates i)) 0 urls = .error e) ∨
    ∃ acks : List Bool,
      askPeers parse attempts (fun i => peerReply handle (peers i) (fates i)) 0 urls = .ok acks ∧
      (true ∉ acks ∧ t ≤ acks.length + 1 ↔
        EnoughAnswer takes t urls.length attempts fates ∧
        PlainAnswers takes urls.length attempts fates) := by
  by_cases hWhole : ∀ i < urls.length, ¬ CutShort takes (fates i) attempts
  swap
  · obtain ⟨i, hi, hCut⟩ : ∃ i < urls.length, CutShort takes (fates i) attempts := by
      simpa using hWhole
    exact .inl ⟨fun h => (h i hi).2 hCut, askPeers_cutShort hPrepares hParse hEmpty hFree fates
      attempts 0 urls ⟨i, by omega, by omega, hCut⟩⟩
  obtain ⟨acks, answering, hAcks, hSeen, hLength, hNodup, hMem⟩ :=
    askPeers_fates hPrepares hParse hEmpty hFree fates attempts 0 urls
      fun j _ hLt => hWhole j (by omega)
  rw [Nat.zero_add] at hSeen
  refine .inr ⟨acks, hAcks, ?_⟩
  have hNone : true ∉ acks ↔ PlainAnswers takes urls.length attempts fates := by
    rw [hSeen, not_exists]
    exact ⟨fun h i hi => ⟨fun hD => h i ⟨by omega, hi, hD⟩, hWhole i hi⟩,
      fun h i hD => (h i hD.2.1).1 hD.2.2⟩
  have hEnough : t ≤ acks.length + 1 ↔ EnoughAnswer takes t urls.length attempts fates := by
    constructor
    · intro hLe
      refine ⟨answering, hNodup, fun j hj => ?_, by omega⟩
      obtain ⟨-, hLt, hAnswers⟩ := (hMem j).mp hj
      exact ⟨by omega, hAnswers⟩
    · rintro ⟨others, hOthers, hAll, hLe⟩
      -- all that answer are among those that acknowledged
      have hSub : others ⊆ answering := by
        intro j hj
        obtain ⟨hLt, hAnswers⟩ := hAll j hj
        exact (hMem j).mpr ⟨by omega, by omega, hAnswers⟩
      have hCount := (List.subperm_of_subset hOthers hSub).length_le
      omega
  rw [hNone, hEnough, and_comm]

/-- The transport asks nobody when it has no peer, and else runs the loop over them. -/
theorem postPrepare_eq (decode : String → Option Bool) (T : HttpIntentConsumeTransport)
    (reply : Nat → Nat → PostReply) :
    postPrepare decode T ⟨.ok (), reply⟩ =
      (askPeers (parseAlreadySeen decode) (max T.maxRetries 1) reply 0 T.peerPrepareUrls).map
        (List.map IntentPrepareAck.mk) := by
  unfold postPrepare
  split
  · rename_i hNil
    rw [hNil]
    rfl
  · dsimp only
    rw [preparePeers_eq]

theorem prepareOnPeers_eq (decode : String → Option Bool) (S : HttpAntiNonceTransport)
    (reply : Nat → Nat → PostReply) :
    prepareOnPeers decode S ⟨.ok (), reply⟩ =
      (askPeers (parseSessionSeen decode) (max S.maxRetries 1) reply 0 S.peerPrepareUrls).map
        (List.map PrepareAck.mk) := by
  unfold prepareOnPeers
  split
  · rename_i hNil
    rw [hNil]
    rfl
  · dsimp only
    cases askPeers (parseSessionSeen decode) (max S.maxRetries 1) reply 0 S.peerPrepareUrls with
    | error e => rfl
    | ok acks => rfl

/-- The claim of an id of the bucket ledger nobody has touched. -/
theorem tryConsume_retried_iff {decode : String → Option Bool}
    (hDecode : ∀ seen, decode (prepareBody seen) = some seen) (hEmpty : decode "" = none) (t : Nat)
    (id : String) (fates : Nat → Nat → Fate) (T : HttpIntentConsumeTransport)
    {l : PersistedBucketLedger} (hFree : id ∉ l.inner.consumed)
    {peers : Nat → PersistedBucketLedger} (hPeers : ∀ i, id ∉ (peers i).inner.consumed) :
    (QuorumBucketLedger.tryConsume t .ok (postPrepare decode T
        ⟨.ok (), fun i => peerReply (handleConsumePrepare id) (peers i) (fates i)⟩) id l).1 = .ok () ↔
      EnoughAnswer TakesConsume t T.peerPrepareUrls.length (max T.maxRetries 1) fates ∧
      PlainAnswers TakesConsume T.peerPrepareUrls.length (max T.maxRetries 1) fates := by
  have hParse : ∀ seen, parseAlreadySeen decode (prepareBody seen) = .ok seen := fun seen => by
    rw [parseAlreadySeen, hDecode]
  have hNothing : ∃ e, parseAlreadySeen decode "" = .error e :=
    ⟨_, by rw [parseAlreadySeen, hEmpty]⟩
  -- the coordinator burns on its own disk before it asks anyone
  have hBurn : l.prepareConsume .ok id = (.ok false, ⟨l.inner.burn id, l.log.append id.toList⟩) := by
    simp [PersistedBucketLedger.prepareConsume, hFree]
  rw [QuorumBucketLedger.tryConsume, QuorumBucketLedger.claimConsume, hBurn, postPrepare_eq]
  rcases askPeers_passes (prepares_consume id) hParse hNothing hPeers fates t (max T.maxRetries 1)
    T.peerPrepareUrls with ⟨hCut, e, hRound⟩ | ⟨acks, hRound, hPasses⟩
  · rw [hRound]
    exact iff_of_false (by rintro ⟨⟩) fun h => hCut h.2
  · rw [hRound]
    dsimp only [Except.map]
    have hSame : IntentPrepareAck.alreadySeen ∘ IntentPrepareAck.mk = fun seen => seen := rfl
    rw [checkAcks_ok, List.map_map, List.length_map, hSame, List.map_id', hPasses]

/-- The claim of a session id nobody has touched. -/
theorem claimSession_retried_iff {decode : String → Option Bool}
    (hDecode : ∀ seen, decode (prepareBody seen) = some seen) (hEmpty : decode "" = none) (t : Nat)
    (sessionId : String) (fates : Nat → Nat → Fate) (S : HttpAntiNonceTransport)
    {l : PersistedAntiNonce} (hFree : sessionId ∉ l.inner) {peers : Nat → PersistedAntiNonce}
    (hPeers : ∀ i, sessionId ∉ (peers i).inner) :
    (QuorumAntiNonce.claimSession t .ok (prepareOnPeers decode S
        ⟨.ok (), fun i => peerReply (handleSessionPrepare sessionId) (peers i) (fates i)⟩) sessionId
        l).1 = .ok () ↔
      EnoughAnswer (TakesSession sessionId) t S.peerPrepareUrls.length (max S.maxRetries 1) fates ∧
      PlainAnswers (TakesSession sessionId) S.peerPrepareUrls.length (max S.maxRetries 1) fates := by
  have hParse : ∀ seen, parseSessionSeen decode (prepareBody seen) = .ok seen := fun seen => by
    rw [parseSessionSeen, hDecode]
  have hNothing : ∃ e, parseSessionSeen decode "" = .error e :=
    ⟨_, by rw [parseSessionSeen, hEmpty]⟩
  -- the coordinator claims on its own disk before it asks anyone
  have hBurn : l.claimSession .ok sessionId = (.ok (), ⟨insert sessionId l.inner,
      l.soft.erase sessionId, l.log.append sessionId.toList⟩) := by
    simp [PersistedAntiNonce.claimSession, PersistedAntiNonce.prepare, PersistedAntiNonce.appendId,
      hFree]
  rw [QuorumAntiNonce.claimSession, hBurn, prepareOnPeers_eq]
  rcases askPeers_passes (prepares_session sessionId) hParse hNothing (fun i h => hPeers i h.1) fates
    t (max S.maxRetries 1) S.peerPrepareUrls with ⟨hCut, e, hRound⟩ | ⟨acks, hRound, hPasses⟩
  · rw [hRound]
    exact iff_of_false (by rintro ⟨⟩) fun h => hCut h.2
  · rw [hRound]
    dsimp only [Except.map]
    have hSame : PrepareAck.alreadySeen ∘ PrepareAck.mk = fun seen => seen := rfl
    rw [QuorumAntiNonce.checkAcks_ok, List.map_map, List.length_map, hSame, List.map_id', hPasses]

/-- **Retried prepares.** A claim of an id nobody has touched returns Ok whenever
enough peers answer, exactly when none of the answers that get back is to a
second prepare and none of the successes has lost its body (or too few peers answer
anyhow). -/
theorem claims_retried_iff {decode : String → Option Bool}
    (hDecode : ∀ seen, decode (prepareBody seen) = some seen) (hEmpty : decode "" = none) (t : Nat)
    (id : String) (fates : Nat → Nat → Fate)
    (T : HttpIntentConsumeTransport) {l : PersistedBucketLedger} (hFree : id ∉ l.inner.consumed)
    {peers : Nat → PersistedBucketLedger} (hPeers : ∀ i, id ∉ (peers i).inner.consumed)
    (S : HttpAntiNonceTransport) {a : PersistedAntiNonce} (hFreeSession : id ∉ a.inner)
    {sessionPeers : Nat → PersistedAntiNonce} (hSessionPeers : ∀ i, id ∉ (sessionPeers i).inner) :
    let bucketEnough :=
      EnoughAnswer TakesConsume t T.peerPrepareUrls.length (max T.maxRetries 1) fates
    let sessionEnough :=
      EnoughAnswer (TakesSession id) t S.peerPrepareUrls.length (max S.maxRetries 1) fates
    ((bucketEnough → (QuorumBucketLedger.tryConsume t .ok (postPrepare decode T
        ⟨.ok (), fun i => peerReply (handleConsumePrepare id) (peers i) (fates i)⟩) id l).1 =
          .ok ()) ↔
      (bucketEnough → PlainAnswers TakesConsume T.peerPrepareUrls.length (max T.maxRetries 1)
        fates)) ∧
    ((sessionEnough → (QuorumAntiNonce.claimSession t .ok (prepareOnPeers decode S
        ⟨.ok (), fun i => peerReply (handleSessionPrepare id) (sessionPeers i) (fates i)⟩) id
          a).1 = .ok ()) ↔
      (sessionEnough → PlainAnswers (TakesSession id) S.peerPrepareUrls.length (max S.maxRetries 1)
        fates)) := by
  intro bucketEnough sessionEnough
  rw [tryConsume_retried_iff hDecode hEmpty t id fates T hFree hPeers,
    claimSession_retried_iff hDecode hEmpty t id fates S hFreeSession hSessionPeers]
  exact ⟨forall_congr' fun hEnough => and_iff_right hEnough,
    forall_congr' fun hEnough => and_iff_right hEnough⟩

/-! ### One peer, one lost response -/

/-- The parse of the two bodies a peer sends. -/
def decodePrepareBody (body : String) : Option Bool :=
  if body = prepareBody true then some true
  else if body = prepareBody false then some false
  else none

/-- The first response is lost, the second gets back. -/
def lostOnce (_ : Nat) : Nat → Fate
  | 0 => .responseLost .ok
  | _ => .answered .ok

theorem decodePrepareBody_prepareBody (seen : Bool) :
    decodePrepareBody (prepareBody seen) = some seen := by
  cases seen <;> decide +kernel

def emptyLedger : PersistedBucketLedger := PersistedBucketLedger.openLedger .empty 1000 1000

def emptySessions : PersistedAntiNonce := PersistedAntiNonce.openStore .empty

/-- A peer that answers at once answers no second prepare, and sends the body too. -/
theorem plain_atOnce (takes : Disk → Prop) (i : Nat) :
    ¬ Doubled takes ((fun _ _ => .answered .ok : Nat → Nat → Fate) i) 2 ∧
    ¬ CutShort takes ((fun _ _ => .answered .ok : Nat → Nat → Fate) i) 2 := by
  constructor
  · rintro ⟨k, -, -, -, j, -, disk, hFate, -⟩
    cases hFate
  · rintro ⟨k, -, -, disk, hFate, -⟩
    cases hFate

/-- One peer that answers at once. -/
theorem claims_retried_iff_atOnce :
    (QuorumBucketLedger.tryConsume 2 .ok (postPrepare decodePrepareBody ⟨["peer"], 2⟩
      ⟨.ok (), fun _ => peerReply (handleConsumePrepare "intent-1") emptyLedger
        fun _ => .answered .ok⟩) "intent-1" emptyLedger).1 = .ok () ∧
    (QuorumAntiNonce.claimSession 2 .ok (prepareOnPeers decodePrepareBody ⟨["peer"], 2⟩
      ⟨.ok (), fun _ => peerReply (handleSessionPrepare "intent-1") emptySessions
        fun _ => .answered .ok⟩) "intent-1" emptySessions).1 = .ok () := by
  obtain ⟨hBucket, hSession⟩ := claims_retried_iff decodePrepareBody_prepareBody (by decide +kernel) 2
    "intent-1"
    (fun _ _ => .answered .ok) ⟨["peer"], 2⟩ (l := emptyLedger) (by decide +kernel)
    (show ∀ _ : Nat, "intent-1" ∉ emptyLedger.inner.consumed from fun _ => by decide +kernel)
    ⟨["peer"], 2⟩ (a := emptySessions) (by decide +kernel)
    (show ∀ _ : Nat, "intent-1" ∉ emptySessions.inner from fun _ => by decide +kernel)
  have hFirst : ∀ j < 0, (Fate.answered .ok).lost = true := fun j hj => absurd hj (by omega)
  refine ⟨hBucket.mpr (fun _ i _ => ?_) ⟨[0], List.nodup_singleton _, fun j hj => ?_, by decide⟩,
    hSession.mpr (fun _ i _ => ?_) ⟨[0], List.nodup_singleton _, fun j hj => ?_, by decide⟩⟩
  · exact plain_atOnce _ i
  · obtain rfl := List.mem_singleton.mp hj
    exact ⟨by decide, 0, by decide, hFirst, .ok, rfl, .inl rfl⟩
  · exact plain_atOnce _ i
  · obtain rfl := List.mem_singleton.mp hj
    exact ⟨by decide, 0, by decide, hFirst, .ok, rfl, .inl ⟨rfl, by decide +kernel⟩⟩

/-- One lost response and one retry: the quorum has answered, the id is burned
on both nodes, and both claims are refused as replays. -/
theorem claims_retried_fails :
    EnoughAnswer TakesConsume 2 1 2 lostOnce ∧ EnoughAnswer (TakesSession "intent-1") 2 1 2 lostOnce ∧
    (QuorumBucketLedger.tryConsume 2 .ok (postPrepare decodePrepareBody ⟨["peer"], 2⟩
      ⟨.ok (), fun i => peerReply (handleConsumePrepare "intent-1") emptyLedger (lostOnce i)⟩)
      "intent-1" emptyLedger).1 = .error (.intentReplay "intent seen on ≥1 peer: intent-1") ∧
    (QuorumAntiNonce.claimSession 2 .ok (prepareOnPeers decodePrepareBody ⟨["peer"], 2⟩
      ⟨.ok (), fun i => peerReply (handleSessionPrepare "intent-1") emptySessions (lostOnce i)⟩)
      "intent-1" emptySessions).1 = .error (.nonceReuse "session_id seen on ≥1 peer: intent-1") := by
  have hLost : ∀ i, ∀ j < 1, (lostOnce i j).lost = true := by
    intro i j hj
    obtain rfl : j = 0 := by omega
    rfl
  refine ⟨⟨[0], List.nodup_singleton _, fun j hj => ?_, by decide⟩,
    ⟨[0], List.nodup_singleton _, fun j hj => ?_, by decide⟩, by decide +kernel, by decide +kernel⟩
  · obtain rfl := List.mem_singleton.mp hj
    exact ⟨by decide, 1, by decide, hLost 0, .ok, rfl, .inl rfl⟩
  · obtain rfl := List.mem_singleton.mp hj
    exact ⟨by decide, 1, by decide, hLost 0, .ok, rfl, .inl ⟨rfl, by decide +kernel⟩⟩

end KeroseneVault
