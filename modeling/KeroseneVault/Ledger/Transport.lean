import KeroseneVault.Ledger.Quorum

/-!
# The HTTP transport of a prepare round

`HttpIntentConsumeTransport::post_prepare` asks the peers one after the other.
A peer that cannot be reached, or keeps answering with an error status, is
skipped. A success answer whose body does not parse ends the whole round with
an error, whatever the peers before it answered.

* `PostReply` — what one POST yields;
* `preparePeer` — the attempts on one peer;
* `postPrepare` — a round over all peers.

Main results:

* `preparePeer_error_iff` — a peer fails the round exactly by a success answer
  that does not parse;
* `postPrepare_error_iff` — a round is an error exactly when the client is not
  built or such a peer is met.
-/

namespace KeroseneVault

/-- What one POST yields: a response, or a failure to send. -/
inductive PostReply where
  | response (status : Nat) (body : String)
  | sendFails
  deriving DecidableEq

/-- `StatusCode::is_success`. -/
def isSuccess (status : Nat) : Bool := 200 ≤ status && status < 300

/-- `PeerHttpSettings::should_retry_status`. -/
def shouldRetryStatus (status : Nat) : Bool := (500 ≤ status && status < 600) || status == 408

/-- Is the POST tried again after this reply? -/
def PostReply.retried : PostReply → Bool
  | .response status _ => !isSuccess status && shouldRetryStatus status
  | .sendFails => true

/-- `HttpIntentConsumeTransport`, with the setting of `peer_http` the loop reads. -/
structure HttpIntentConsumeTransport where
  peerPrepareUrls : List String
  maxRetries : Nat

/-- What the network does during one round: whether the client is built, and
the reply of each peer to each attempt. -/
structure PrepareNet where
  client : Outcome
  reply : Nat → Nat → PostReply

section Decode

-- `serde_json` on the body of an answer: the field `already_seen`, if it parses
variable (decode : String → Option Bool)

def parseAlreadySeen (body : String) : Except DomainError Bool :=
  match decode body with
  | some seen => .ok seen
  | none => .error (.thresholdError
      "intent-consume peer response missing already_seen (fail-closed)")

/-- The attempts on one peer, from number `attempt` on, `left` of them. -/
def preparePeer (reply : Nat → PostReply) (attempt : Nat) :
    Nat → Except DomainError (Option IntentPrepareAck)
  | 0 => .ok none
  | left + 1 =>
    match reply attempt with
    | .response status body =>
      if isSuccess status then
        match parseAlreadySeen decode body with
        | .error e => .error e
        | .ok seen => .ok (some ⟨seen⟩)
      else if !shouldRetryStatus status then .ok none
      else preparePeer reply (attempt + 1) left
    | .sendFails => preparePeer reply (attempt + 1) left

/-- The loop over the peers, from number `i` on. -/
def preparePeers (attempts : Nat) (reply : Nat → Nat → PostReply) (i : Nat) :
    List String → Round
  | [] => .ok []
  | _ :: urls =>
    match preparePeer decode (reply i) 0 attempts with
    | .error e => .error e
    | .ok ack =>
      match preparePeers attempts reply (i + 1) urls with
      | .error e => .error e
      | .ok acks => .ok (ack.toList ++ acks)

def postPrepare (T : HttpIntentConsumeTransport) (net : PrepareNet) : Round :=
  if T.peerPrepareUrls = [] then .ok []
  else
    match net.client with
    | .error e => .error e
    | .ok () => preparePeers decode (max T.maxRetries 1) net.reply 0 T.peerPrepareUrls

/-! ## When a round is an error -/

/-- Some attempt gets a success answer that does not parse, after replies that
are all tried again. -/
def Malformed (reply : Nat → PostReply) (attempts : Nat) : Prop :=
  ∃ k < attempts, (∀ j < k, (reply j).retried = true) ∧
    ∃ status body, reply k = .response status body ∧ isSuccess status = true ∧
      decode body = none

theorem malformed_succ_of_retried {reply : Nat → PostReply} {attempts : Nat}
    (h : (reply 0).retried = true) :
    Malformed decode reply (attempts + 1) ↔
      Malformed decode (fun j => reply (j + 1)) attempts := by
  constructor
  · rintro ⟨k, hk, hBefore, status, body, hReply, hStatus, hBody⟩
    cases k with
    | zero =>
      -- the first reply is tried again, so it is no success
      rw [hReply] at h
      simp [PostReply.retried, hStatus] at h
    | succ k =>
      exact ⟨k, by omega, fun j hj => hBefore (j + 1) (by omega), status, body, hReply,
        hStatus, hBody⟩
  · rintro ⟨k, hk, hBefore, hAnswer⟩
    refine ⟨k + 1, by omega, fun j hj => ?_, hAnswer⟩
    cases j with
    | zero => exact h
    | succ j => exact hBefore j (by omega)

theorem malformed_succ_of_settled {reply : Nat → PostReply} {attempts : Nat}
    (h : (reply 0).retried = false) :
    Malformed decode reply (attempts + 1) ↔
      ∃ status body, reply 0 = .response status body ∧ isSuccess status = true ∧
        decode body = none := by
  constructor
  · rintro ⟨k, -, hBefore, hAnswer⟩
    cases k with
    | zero => exact hAnswer
    | succ k =>
      have hFirst := hBefore 0 (by omega)
      rw [h] at hFirst
      cases hFirst
  · intro hAnswer
    exact ⟨0, by omega, fun j hj => absurd hj (Nat.not_lt_zero j), hAnswer⟩

/-- A peer fails the round exactly by a success answer that does not parse. -/
theorem preparePeer_error_iff (reply : Nat → PostReply) (attempt left : Nat) :
    (∃ e, preparePeer decode reply attempt left = .error e) ↔
      Malformed decode (fun j => reply (attempt + j)) left := by
  -- one attempt fewer is left, and the answers are counted from the next one on
  induction left generalizing attempt with
  | zero => simp [preparePeer, Malformed]
  | succ left ih =>
    have hShift : (fun j => reply (attempt + (j + 1))) = fun j => reply (attempt + 1 + j) := by
      funext j
      rw [Nat.add_right_comm, Nat.add_assoc]
    cases hReply : reply attempt with
    | sendFails =>
      rw [malformed_succ_of_retried decode (by simp [hReply, PostReply.retried]), hShift,
        ← ih (attempt + 1)]
      simp [preparePeer, hReply]
    | response status body =>
      by_cases hStatus : isSuccess status = true
      · rw [malformed_succ_of_settled decode (by simp [hReply, PostReply.retried, hStatus])]
        simp only [preparePeer, hReply, hStatus, if_true, parseAlreadySeen, Nat.add_zero]
        cases hBody : decode body with
        | some seen => simp [hBody]
        | none => simp [hBody, hStatus]
      · by_cases hRetry : shouldRetryStatus status = true
        · rw [malformed_succ_of_retried decode (by
            simp [hReply, PostReply.retried, hStatus, hRetry]), hShift, ← ih (attempt + 1)]
          simp [preparePeer, hReply, hStatus, hRetry]
        · rw [malformed_succ_of_settled decode (by
            simp [hReply, PostReply.retried, hRetry])]
          simp [preparePeer, hReply, hStatus, hRetry]

/-- A round over peers fails just where one of them gives a malformed answer. -/
theorem preparePeers_error_iff (attempts : Nat) (reply : Nat → Nat → PostReply) (i : Nat)
    (urls : List String) :
    (∃ e, preparePeers decode attempts reply i urls = .error e) ↔
      ∃ j < urls.length, Malformed decode (reply (i + j)) attempts := by
  induction urls generalizing i with
  | nil => simp [preparePeers]
  | cons url urls ih =>
    have hPeer := preparePeer_error_iff decode (reply i) 0 attempts
    simp only [Nat.zero_add] at hPeer
    -- the first peer, or one of the rest
    have hSplit : (∃ j < (url :: urls).length, Malformed decode (reply (i + j)) attempts) ↔
        Malformed decode (reply i) attempts ∨
          ∃ j < urls.length, Malformed decode (reply (i + 1 + j)) attempts := by
      constructor
      · rintro ⟨j, hj, hMal⟩
        cases j with
        | zero => exact Or.inl hMal
        | succ j =>
          refine Or.inr ⟨j, by simpa using hj, ?_⟩
          rwa [show i + 1 + j = i + (j + 1) by omega]
      · rintro (hMal | ⟨j, hj, hMal⟩)
        · exact ⟨0, by simp, hMal⟩
        · refine ⟨j + 1, by simpa using hj, ?_⟩
          rwa [show i + (j + 1) = i + 1 + j by omega]
    rw [hSplit, ← ih (i + 1), ← hPeer]
    simp only [preparePeers]
    cases preparePeer decode (reply i) 0 attempts with
    | error e => simp
    | ok ack => cases preparePeers decode attempts reply (i + 1) urls <;> simp

/-- A round is an error exactly when there are peers and the client is not
built or one of them gives a success answer that does not parse. -/
theorem postPrepare_error_iff (T : HttpIntentConsumeTransport) (net : PrepareNet) :
    (∃ e, postPrepare decode T net = .error e) ↔
      T.peerPrepareUrls ≠ [] ∧ (net.client ≠ .ok () ∨
        ∃ i < T.peerPrepareUrls.length,
          Malformed decode (net.reply i) (max T.maxRetries 1)) := by
  unfold postPrepare
  by_cases hNil : T.peerPrepareUrls = []
  · simp [hNil]
  · rw [if_neg hNil]
    have hLoop := preparePeers_error_iff decode (max T.maxRetries 1) net.reply 0
      T.peerPrepareUrls
    simp only [Nat.zero_add] at hLoop
    cases net.client with
    | error e => simp [hNil]
    | ok => simpa [hNil] using hLoop

/-- A node without peers has nobody to ask. -/
theorem postPrepare_nil (maxRetries : Nat) (net : PrepareNet) :
    postPrepare decode ⟨[], maxRetries⟩ net = .ok [] := by
  simp [postPrepare]

end Decode

end KeroseneVault
