import KeroseneVault.Cosign.Peer
import KeroseneVault.Lib.Runs

/-!
# Nonce hygiene of a co-sign peer

A commit request that reaches `round1::commit` makes a fresh nonce pair. It
waits under its session id until a sign-share request takes it out or another
commit of the session takes its place. A book beside the peer numbers the
pairs in the order they are made and notes every call of `round2::sign`.

* `NonceBook` — the peer, the pairs made, and the pairs used;
* `Dead` — a pair that was made and waits nowhere.

Main results:

* `hygienic_run` — the book is right and no pair was used twice, in every run;
* `Dead.run` — a dead pair stays dead and is not used again;
* `nonce_hygiene` — both, for every sequence of requests.
-/

namespace KeroseneVault

open TrCosignPeerState

/-! ## The book -/

/-- One call of `round2::sign`: the number of the pair, its nonces, and the
message of the package. -/
structure NonceUse (F : FrostTr) where
  number : Nat
  nonces : F.Nonces
  message : List UInt8

/-- A peer and what was done with its nonce pairs. -/
structure NonceBook (F : FrostTr) where
  peer : TrCosignPeerState F
  /-- The pairs made, each with the message of its commit; a pair's number is
  its place. -/
  made : List (PendingTrRound F)
  /-- The number of the pair that waits under a session. -/
  waiting : Table String Nat
  /-- The calls of `round2::sign`. -/
  used : List (NonceUse F)

/-- A request to the peer with its surroundings. -/
inductive PeerRequest (F : FrostTr) where
  | commit (env : CosignEnv F) (req : TrCommitRequest)
  | signShare (env : CosignEnv F) (req : TrSignShareRequest)

namespace NonceBook

variable {F : FrostTr}

/-- A peer that has seen no request. -/
def fresh (localNodeId : String) : NonceBook F := ⟨⟨localNodeId, ∅⟩, [], ∅, []⟩

/-- A commit that reaches `round1::commit` makes a pair; an Ok keeps it. -/
def commit (env : CosignEnv F) (req : TrCommitRequest) (s : NonceBook F) : NonceBook F :=
  let r := handleCommit env req s.peer
  match commitCall env req with
  | .error _ => { s with peer := r.2 }
  | .ok c =>
    { s with
      peer := r.2
      made := s.made ++ [c.pair env]
      waiting := match r.1 with
        | .ok _ => s.waiting.insert req.sessionId s.made.length
        | .error _ => s.waiting }

/-- A sign-share request takes the session's pair out, used or not. A pair
nobody numbered would be noted under a number no pair has. -/
def signShare (env : CosignEnv F) (req : TrSignShareRequest) (s : NonceBook F) : NonceBook F :=
  { s with
    peer := (handleSignShare env req s.peer).2
    waiting := s.waiting.erase req.sessionId
    used := s.used ++ ((signCall env req s.peer).map fun call =>
      ⟨(s.waiting.lookup req.sessionId).getD s.made.length, call.1.nonces,
        call.2.package.message⟩).toList }

def step (s : NonceBook F) : PeerRequest F → NonceBook F
  | .commit env req => s.commit env req
  | .signShare env req => s.signShare env req

/-! ## The invariant -/

/-- The book is right, and every pair was used at most once, for its commit's
message, and not while it waits. -/
structure Hygienic (s : NonceBook F) : Prop where
  /-- What waits at the peer is a pair of the book, under its number. -/
  pending : ∀ session round, s.peer.pending.lookup session = some round →
    ∃ n, s.waiting.lookup session = some n ∧ s.made[n]? = some round
  made : ∀ session n, s.waiting.lookup session = some n → n < s.made.length
  once : ∀ session session' n, s.waiting.lookup session = some n →
    s.waiting.lookup session' = some n → session = session'
  unused : ∀ session n, s.waiting.lookup session = some n → n ∉ s.used.map NonceUse.number
  nodup : (s.used.map NonceUse.number).Nodup
  /-- A use is of a pair that was made, with its nonces, for its message. -/
  matched : ∀ u ∈ s.used, s.made[u.number]? = some ⟨u.nonces, u.message⟩

theorem hygienic_fresh (localNodeId : String) : Hygienic (fresh (F := F) localNodeId) where
  pending session round h := by simp [fresh] at h
  made session n h := by simp [fresh] at h
  once session session' n h := by simp [fresh] at h
  unused session n h := by simp [fresh] at h
  nodup := List.nodup_nil
  matched u h := by simp [fresh] at h

/-- What was used has a number below the pairs made. -/
theorem Hygienic.number_lt {s : NonceBook F} (h : Hygienic s) {u : NonceUse F} (hu : u ∈ s.used) :
    u.number < s.made.length :=
  (List.getElem?_eq_some_iff.mp (h.matched u hu)).1

/-- A new pair, kept or not, leaves the pairs before it alone. -/
theorem Hygienic.append {s : NonceBook F} (h : Hygienic s) (pair : PendingTrRound F) :
    Hygienic { s with made := s.made ++ [pair] } where
  pending session round hRound := by
    obtain ⟨n, hWaits, hMade⟩ := h.pending session round hRound
    refine ⟨n, hWaits, ?_⟩
    rw [List.getElem?_append_left (h.made session n hWaits)]
    exact hMade
  made session n hWaits := by
    have hLt := h.made session n hWaits
    rw [List.length_append]
    omega
  once := h.once
  unused := h.unused
  nodup := h.nodup
  matched u hu := by
    rw [List.getElem?_append_left (h.number_lt hu)]
    exact h.matched u hu

/-- A commit keeps the book right. -/
theorem Hygienic.commit {s : NonceBook F} (h : Hygienic s) (env : CosignEnv F)
    (req : TrCommitRequest) : Hygienic (s.commit env req) := by
  unfold NonceBook.commit
  rw [handleCommit_eq]
  cases commitCall env req with
  | error e => exact h
  | ok c =>
    dsimp only
    cases F.serializeCommitments (F.commit c.key env.randomness).2 with
    | error e => exact h.append (c.pair env)
    | ok bytes =>
      -- the new pair takes the session's place
      have hAppend := h.append (c.pair env)
      have hNew : (s.made ++ [c.pair env])[s.made.length]? = some (c.pair env) := by simp
      constructor
      · intro session round hRound
        dsimp only at hRound ⊢
        by_cases hSession : session = req.sessionId
        · subst hSession
          rw [AList.lookup_insert] at hRound ⊢
          cases hRound
          exact ⟨s.made.length, rfl, hNew⟩
        · rw [AList.lookup_insert_ne hSession] at hRound ⊢
          exact hAppend.pending session round hRound
      · intro session n hWaits
        rcases Table.lookup_insert_eq_some.mp hWaits with ⟨-, rfl⟩ | ⟨-, hOld⟩
        · simp
        · exact hAppend.made session n hOld
      · intro session session' n hWaits hWaits'
        -- the number of the new pair is that of no other session
        rcases Table.lookup_insert_eq_some.mp hWaits with ⟨rfl, rfl⟩ | ⟨-, hOld⟩
        · rcases Table.lookup_insert_eq_some.mp hWaits' with ⟨hSession', -⟩ | ⟨-, hOld'⟩
          · exact hSession'.symm
          · exact absurd (h.made session' _ hOld') (Nat.lt_irrefl _)
        · rcases Table.lookup_insert_eq_some.mp hWaits' with ⟨-, rfl⟩ | ⟨-, hOld'⟩
          · exact absurd (h.made session _ hOld) (Nat.lt_irrefl _)
          · exact h.once session session' n hOld hOld'
      · intro session n hWaits
        rcases Table.lookup_insert_eq_some.mp hWaits with ⟨-, rfl⟩ | ⟨-, hOld⟩
        · -- the number is new
          intro hUsed
          obtain ⟨u, hu, hNumber⟩ := List.mem_map.mp hUsed
          have hLt := h.number_lt hu
          omega
        · exact h.unused session n hOld
      · exact h.nodup
      · exact hAppend.matched

/-- A sign-share request keeps the book right. -/
theorem Hygienic.signShare {s : NonceBook F} (h : Hygienic s) (env : CosignEnv F)
    (req : TrSignShareRequest) : Hygienic (s.signShare env req) := by
  unfold NonceBook.signShare
  rw [handleSignShare_state]
  -- the session signed for waits no more, whatever comes of it
  have hErased : ∀ session n, (s.waiting.erase req.sessionId).lookup session = some n →
      session ≠ req.sessionId ∧ s.waiting.lookup session = some n := by
    intro session n hWaits
    by_cases hSession : session = req.sessionId
    · subst hSession
      simp at hWaits
    · rw [AList.lookup_erase_ne hSession] at hWaits
      exact ⟨hSession, hWaits⟩
  -- the rounds that still wait are the same pairs as before
  have hPending : ∀ session round,
      (s.peer.pending.erase req.sessionId).lookup session = some round →
        ∃ n, (s.waiting.erase req.sessionId).lookup session = some n ∧ s.made[n]? = some round := by
    intro session round hRound
    by_cases hSession : session = req.sessionId
    · subst hSession
      simp at hRound
    · rw [AList.lookup_erase_ne hSession] at hRound
      rw [AList.lookup_erase_ne hSession]
      exact h.pending session round hRound
  cases hCall : signCall env req s.peer with
  | none =>
    simp only [Option.map_none, Option.toList_none, List.append_nil]
    exact ⟨hPending, fun session n hWaits => h.made session n (hErased session n hWaits).2,
      fun session session' n hWaits hWaits' => h.once session session' n
        (hErased session n hWaits).2 (hErased session' n hWaits').2,
      fun session n hWaits => h.unused session n (hErased session n hWaits).2, h.nodup, h.matched⟩
  | some call =>
    obtain ⟨round, c⟩ := call
    obtain ⟨hRound, hMessage⟩ := signCall_some hCall
    -- the pair that is used is the one that waited
    obtain ⟨n, hWaits, hMade⟩ := h.pending req.sessionId round hRound
    simp only [Option.map_some, Option.toList_some, hWaits, Option.getD_some]
    have hUnused := h.unused req.sessionId n hWaits
    refine ⟨hPending, fun session m hm => h.made session m (hErased session m hm).2,
      fun session session' m hm hm' => h.once session session' m
        (hErased session m hm).2 (hErased session' m hm').2, ?_, ?_, ?_⟩
    · -- another session's pair is another pair
      intro session m hm
      obtain ⟨hSession, hWaitsToo⟩ := hErased session m hm
      rw [List.map_append, List.mem_append, not_or]
      refine ⟨h.unused session m hWaitsToo, ?_⟩
      intro hEq
      simp only [List.map_cons, List.map_nil, List.mem_singleton] at hEq
      subst hEq
      exact hSession (h.once session req.sessionId m hWaitsToo hWaits)
    · -- it was not used before
      rw [List.map_append, List.nodup_append]
      refine ⟨h.nodup, by simp, ?_⟩
      intro m hm m' hm' hEq
      simp only [List.map_cons, List.map_nil, List.mem_singleton] at hm'
      subst hEq
      exact hUnused (hm' ▸ hm)
    · intro u hu
      rw [List.mem_append, List.mem_singleton] at hu
      rcases hu with hu | rfl
      · exact h.matched u hu
      · show s.made[n]? = some ⟨round.nonces, c.package.message⟩
        rw [hMade, hMessage]

/-- The book is right in every run. -/
theorem hygienic_run (localNodeId : String) (as : List (PeerRequest F)) :
    Hygienic (Runs.run step (fresh localNodeId) as) := by
  refine Runs.run_preserves (fun s a h => ?_) (hygienic_fresh localNodeId) as
  cases a with
  | commit env req => exact h.commit env req
  | signShare env req => exact h.signShare env req

/-! ## Dead pairs -/

/-- The pair was made and waits under no session. -/
def Dead (s : NonceBook F) (n : Nat) : Prop :=
  n < s.made.length ∧ ∀ session, s.waiting.lookup session ≠ some n

/-- A sign-share request leaves the pair that waited for it dead, whatever it
answers. -/
theorem Hygienic.dead_signShare {s : NonceBook F} (h : Hygienic s) (env : CosignEnv F)
    (req : TrSignShareRequest) {n : Nat} (hWaits : s.waiting.lookup req.sessionId = some n) :
    Dead (s.signShare env req) n := by
  refine ⟨h.made req.sessionId n hWaits, fun session hStill => ?_⟩
  have hStill : (s.waiting.erase req.sessionId).lookup session = some n := hStill
  by_cases hSession : session = req.sessionId
  · subst hSession
    simp at hStill
  · rw [AList.lookup_erase_ne hSession] at hStill
    exact hSession (h.once session req.sessionId n hStill hWaits)

/-- A commit makes a pair with a number of its own. -/
theorem Dead.commit {s : NonceBook F} {n : Nat} (h : Dead s n) (env : CosignEnv F)
    (req : TrCommitRequest) : Dead (s.commit env req) n ∧ (s.commit env req).used = s.used := by
  have hLt := h.1
  unfold NonceBook.commit
  rw [handleCommit_eq]
  cases commitCall env req with
  | error e => exact ⟨h, rfl⟩
  | ok c =>
    have hLength : n < (s.made ++ [c.pair env]).length := by
      rw [List.length_append]
      omega
    dsimp only
    cases F.serializeCommitments (F.commit c.key env.randomness).2 with
    | error e => exact ⟨⟨hLength, h.2⟩, rfl⟩
    | ok bytes =>
      refine ⟨⟨hLength, fun session hWaits => ?_⟩, rfl⟩
      rcases Table.lookup_insert_eq_some.mp hWaits with ⟨-, rfl⟩ | ⟨-, hOld⟩
      · omega
      · exact h.2 session hOld

/-- A sign-share request uses the pair that waits for it, if any. -/
theorem Dead.signShare {s : NonceBook F} {n : Nat} (h : Dead s n) (env : CosignEnv F)
    (req : TrSignShareRequest) :
    Dead (s.signShare env req) n ∧
      ∃ later, (s.signShare env req).used = s.used ++ later ∧
        n ∉ later.map NonceUse.number := by
  refine ⟨⟨h.1, fun session hWaits => ?_⟩, _, rfl, ?_⟩
  · have hWaits : (s.waiting.erase req.sessionId).lookup session = some n := hWaits
    by_cases hSession : session = req.sessionId
    · subst hSession
      simp at hWaits
    · rw [AList.lookup_erase_ne hSession] at hWaits
      exact h.2 session hWaits
  · cases signCall env req s.peer with
    | none => simp
    | some call =>
      -- the number noted is of a pair that waits, or of none
      simp only [Option.map_some, Option.toList_some, List.map_cons, List.map_nil,
        List.mem_singleton]
      cases hLookup : s.waiting.lookup req.sessionId with
      | none =>
        have hLt := h.1
        simp only [Option.getD_none]
        omega
      | some m =>
        rintro rfl
        exact h.2 req.sessionId hLookup

/-- One request leaves a dead pair dead and does not use it. -/
theorem Dead.step {s : NonceBook F} {n : Nat} (h : Dead s n) (a : PeerRequest F) :
    Dead (s.step a) n ∧
      ∃ later, (s.step a).used = s.used ++ later ∧ n ∉ later.map NonceUse.number := by
  cases a with
  | commit env req =>
    obtain ⟨hDead, hUsed⟩ := h.commit env req
    exact ⟨hDead, [], by rw [List.append_nil]; exact hUsed, by simp⟩
  | signShare env req => exact h.signShare env req

/-- A dead pair stays dead and is not used again. -/
theorem Dead.run {s : NonceBook F} {n : Nat} (h : Dead s n) (as : List (PeerRequest F)) :
    Dead (Runs.run NonceBook.step s as) n ∧
      ∃ later, (Runs.run NonceBook.step s as).used = s.used ++ later ∧
        n ∉ later.map NonceUse.number := by
  induction as generalizing s with
  | nil => exact ⟨h, [], by simp, by simp⟩
  | cons a as ih =>
    obtain ⟨hDead, now, hNow, hNotNow⟩ := h.step a
    obtain ⟨hDeadRest, later, hLater, hNotLater⟩ := ih hDead
    refine ⟨hDeadRest, now ++ later, ?_, ?_⟩
    · rw [Runs.run_cons, hLater, hNow, List.append_assoc]
    · rw [List.map_append, List.mem_append, not_or]
      exact ⟨hNotNow, hNotLater⟩

/--
**Nonce hygiene.** After any sequence of requests: every pair that waits at
the peer is one it made; no pair was used in two calls of `round2::sign`; every
use was of a pair's own nonces for a package with the message of its commit;
and a pair that a sign-share request takes out, whatever the answer, waits
nowhere and is used by no later request.
-/
theorem nonce_hygiene (localNodeId : String) (as : List (PeerRequest F)) :
    let s := Runs.run step (fresh localNodeId) as
    (∀ session round, s.peer.pending.lookup session = some round →
      ∃ n, s.waiting.lookup session = some n ∧ s.made[n]? = some round) ∧
    (s.used.map NonceUse.number).Nodup ∧
    (∀ u ∈ s.used, s.made[u.number]? = some ⟨u.nonces, u.message⟩) ∧
    ∀ env req n, s.waiting.lookup req.sessionId = some n → ∀ bs,
      let s₁ := s.signShare env req
      let s₂ := Runs.run step s₁ bs
      (∀ session, s₂.waiting.lookup session ≠ some n) ∧
        ∃ later, s₂.used = s₁.used ++ later ∧ n ∉ later.map NonceUse.number := by
  intro s
  have h : Hygienic s := hygienic_run localNodeId as
  refine ⟨h.pending, h.nodup, h.matched, fun env req n hWaits bs => ?_⟩
  obtain ⟨hDead, hLater⟩ := (h.dead_signShare env req hWaits).run bs
  exact ⟨hDead.2, hLater⟩

end NonceBook

end KeroseneVault
