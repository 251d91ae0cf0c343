import KeroseneVault.Cosign.Keysets

/-!
# Overlapping co-sign runs

Several runs of `sign_raw_wire`, of one or several coordinators, share the
peers. A step delivers one request of one run to one peer, which may be a
first, a repeated or a late delivery, and its answer may or may not reach the
coordinator; any list of steps is an interleaving. A peer keeps the nonces of a
commit under the session id, which the coordinators derive from the message, so
two runs for one message and a repeated request meet at the same entry.

* `CosignRuns`, `CosignState`, `CosignRuns.step` — the runs and one delivery;
* `lastAt` — the last request a peer got under a session id;
* `Clear` — the delivery finds no other run's round, and a sign-share whose
  answer is taken finds the commit whose answer was taken;
* `Completes`, `Undisturbed` — what the runs ask of a state and of a step.

Main results:

* `inv_step` — what every clear delivery preserves;
* `completes_of_clear` — over an interleaving of clear deliveries every run
  whose requests are answered has a signature, and no round is disturbed;
* `sameMessage_not_completes` — two runs for one message of which one fails.
-/

namespace KeroseneVault

open Coordinator

/-! ## Runs and deliveries -/

/-- Runs over peers that hold one keyset: who coordinates a run with which
peers, its session id, its message, and what its coordinator draws. -/
structure CosignRuns (F : FrostTr) (W : FrostTrCoordinator F) (ρ : Type) where
  keyset : Keyset F W
  name : F.Identifier → String
  group : ρ → CosignGroup F
  sameName : ∀ r, (group r).name = name
  session : ρ → String
  message : ρ → List UInt8
  own : ρ → Nat

/-- A delivery of a commit or sign-share request of a run to a peer; a commit
comes with the randomness the peer draws. -/
inductive CosignStep (F : FrostTr) (ρ : Type) where
  | commit (run : ρ) (peer : F.Identifier) (randomness : Nat) (answered : Bool)
  | signShare (run : ρ) (peer : F.Identifier) (answered : Bool)

def CosignStep.run {F : FrostTr} {ρ : Type} : CosignStep F ρ → ρ
  | commit r _ _ _ => r
  | signShare r _ _ => r

def CosignStep.peer {F : FrostTr} {ρ : Type} : CosignStep F ρ → F.Identifier
  | commit _ i _ _ => i
  | signShare _ i _ => i

/-- What a peer got: a commit with what it drew, or a sign-share; `taken` if
the run goes on with the answer. -/
structure Delivery (F : FrostTr) (ρ : Type) where
  run : ρ
  peer : F.Identifier
  commit : Option Nat
  taken : Bool

/-- The peers, the answers the runs have taken from each, and the deliveries
so far, the last one first. -/
structure CosignState (F : FrostTr) (ρ : Type) where
  peers : F.Identifier → TrCosignPeerState F
  commits : ρ → F.Identifier → Option (Nat × Except DomainError TrCommitResponse)
  shares : ρ → F.Identifier → Option (Except DomainError (Option TrSignShareResponse))
  log : List (Delivery F ρ)

namespace CosignRuns

variable {F : FrostTr} {W : FrostTrCoordinator F} {ρ : Type} (R : CosignRuns F W ρ)

def start : CosignState F ρ := ⟨fun i => ⟨R.name i, ∅⟩, fun _ _ => none, fun _ _ => none, []⟩

/-- The surroundings of a request at a peer. -/
def env (i : F.Identifier) (randomness : Nat) : CosignEnv F :=
  ⟨.ok [(i, R.keyset.key i)], randomness, none⟩

def commitRequest (r : ρ) : TrCommitRequest :=
  ⟨R.session r, F.hexEncode (R.message r), (R.group r).name (R.group r).localId⟩

/-- The answers a run has taken, as what the network replies. -/
def recorded (s : CosignState F ρ) (r : ρ) : CosignNet where
  client := .ok ()
  commit peer _ _ :=
    match (R.group r).peers.find? fun i => decide ((R.group r).peer i = peer) with
    | none => .sendFails "dns error"
    | some i =>
      match s.commits r i with
      | none => .sendFails "pending"
      | some (_, answer) => v1FrostTrCommit answer
  signShare peer _ _ :=
    match (R.group r).peers.find? fun i => decide ((R.group r).peer i = peer) with
    | none => .sendFails "dns error"
    | some i =>
      match s.shares r i with
      | none => .sendFails "pending"
      | some answer => v1FrostTrSignShare answer

/-- The transport of a run over its answers. -/
def transport (s : CosignState F ρ) (r : ρ) : TrCosignTransport :=
  ((R.group r).transport 1).toTransport (R.recorded s r)

/-- What a run has for its second round, once its first is over. -/
def prepared (s : CosignState F ρ) (r : ρ) : Option (Prepared F) :=
  match (R.transport s r).collectCommitments (R.commitRequest r) with
  | .error _ => none
  | .ok peerCommits =>
    let localId := (R.group r).localId
    let key := F.tweak (R.keyset.key localId)
    let (nonces, commitments) := F.commit key (R.own r)
    match prepareShares W (R.keyset.state localId) (R.session r) (R.message r) localId key nonces
      commitments peerCommits with
    | .error _ => none
    | .ok p => some p

/-- What a run returns on its answers. -/
def outcome (s : CosignState F ρ) (r : ρ) : Except DomainError W.Signature :=
  signRawWire W (.ok (R.keyset.state (R.group r).localId)) (R.transport s r)
    ((R.group r).name (R.group r).localId) (R.session r) (R.message r) (R.own r)

/-- The answers with one more, if it reaches the coordinator and is the first
to its request. -/
def take [DecidableEq ρ] {α : Type} (answers : ρ → F.Identifier → Option α) (r : ρ)
    (i : F.Identifier) (answered : Bool) (a : α) (r' : ρ) (i' : F.Identifier) : Option α :=
  if r' = r ∧ i' = i ∧ (answered && (answers r i).isNone) = true then some a else answers r' i'

/-- One delivery. A run makes no commit request but to its peers, and its
sign-share request only after its first round and to those it names. -/
def step [DecidableEq ρ] (s : CosignState F ρ) : CosignStep F ρ → CosignState F ρ
  | .commit r i n answered =>
    if i ∈ (R.group r).peers then
      let (answer, peer) := TrCosignPeerState.handleCommit (R.env i n) (R.commitRequest r) (s.peers i)
      { peers := Function.update s.peers i peer
        commits := take s.commits r i answered (n, answer)
        shares := s.shares
        log := ⟨r, i, some n, answered && (s.commits r i).isNone⟩ :: s.log }
    else s
  | .signShare r i answered =>
    match R.prepared s r with
    | none => s
    | some p =>
      if i ∈ (R.group r).peers ∧ HttpTrCosignTransport.named p.request ((R.group r).peer i) = true then
        let (answer, peer) := TrCosignPeerState.handleSignShare (R.env i 0) p.request (s.peers i)
        { peers := Function.update s.peers i peer
          commits := s.commits
          shares := take s.shares r i answered answer
          log := ⟨r, i, none, answered && (s.shares r i).isNone⟩ :: s.log }
      else s

/-! ## What is asked of the runs -/

/-- The last request a peer got under a session id. -/
def lastAt (log : List (Delivery F ρ)) (i : F.Identifier) (session : String) :
    Option (Delivery F ρ) :=
  log.find? fun d => decide (d.peer = i ∧ R.session d.run = session)

/-- All requests of a run are answered. -/
def Answered (s : CosignState F ρ) (r : ρ) : Prop :=
  (∀ i ∈ (R.group r).peers, (s.commits r i).isSome) ∧
    ∀ i ∈ (R.group r).lowest R.keyset.threshold, (s.shares r i).isSome

/-- No run was answered with an error, and a run whose requests are all
answered has a signature. -/
structure Completes (s : CosignState F ρ) : Prop where
  commits : ∀ r i a, s.commits r i = some a → ∃ resp, a.2 = .ok resp
  shares : ∀ r i a, s.shares r i = some a → ∃ resp, a = .ok (some resp)
  signature : ∀ r, R.Answered s r → ∃ signature, R.outcome s r = .ok signature

/-- The round that waits at a peer is of the run that made the last request
under its session id, and no request of another run changes it. -/
def Undisturbed [DecidableEq ρ] (s : CosignState F ρ) (e : CosignStep F ρ) : Prop :=
  ∀ i session round d, (s.peers i).pending.lookup session = some round →
    R.lastAt s.log i session = some d → d.run ≠ e.run →
      ((R.step s e).peers i).pending.lookup session = some round

/-- Where the answer to a sign-share is taken, the last request the peer got
under the session id is the commit of which the run took the answer. -/
def FindsCommit (s : CosignState F ρ) : CosignStep F ρ → Prop
  | .commit .. => True
  | .signShare r i answered => (answered && (s.shares r i).isNone) = true →
    ∃ d ∈ R.lastAt s.log i (R.session r), d.run = r ∧ d.commit.isSome ∧ d.taken = true

/-- The delivery finds no round of another run under its session id, and the
commit of its own run where a share is taken. -/
structure Clear (s : CosignState F ρ) (e : CosignStep F ρ) : Prop where
  others : ∀ d ∈ R.lastAt s.log e.peer (R.session e.run), d.commit.isSome → d.run = e.run
  finds : R.FindsCommit s e

instance [DecidableEq ρ] (s : CosignState F ρ) : DecidablePred (R.FindsCommit s)
  | .commit .. => isTrue trivial
  | .signShare r i answered => inferInstanceAs (Decidable ((answered && (s.shares r i).isNone) = true →
    ∃ d ∈ R.lastAt s.log i (R.session r), d.run = r ∧ d.commit.isSome ∧ d.taken = true))

instance [DecidableEq ρ] (s : CosignState F ρ) : DecidablePred (R.Clear s) := fun _ =>
  decidable_of_iff _ (Iff.intro (fun h => Clear.mk h.1 h.2) fun h => And.intro h.others h.finds)

/-! ## The answers of a run -/

section Answers

variable {R} {s s' : CosignState F ρ} {r : ρ} {i : F.Identifier}

/-- The first round of a run yields the answers it took, if it took all. -/
theorem collectCommitments_recorded {resp : F.Identifier → TrCommitResponse}
    (h : ∀ i ∈ (R.group r).peers, ∃ n, s.commits r i = some (n, .ok (resp i)))
    (req : TrCommitRequest) :
    (R.transport s r).collectCommitments req = .ok ((R.group r).peers.map resp) := by
  refine Results.mapM_map_ok fun i hi => ?_
  obtain ⟨n, hn⟩ := h i hi
  unfold HttpTrCosignTransport.postCommit recorded
  simp only [(R.group r).find_peer hi, hn, v1FrostTrCommit]
  rfl

theorem commits_of_collectCommitments {req : TrCommitRequest} {rs : List TrCommitResponse}
    (h : (R.transport s r).collectCommitments req = .ok rs) :
    ∀ i ∈ (R.group r).peers, ∃ n resp, s.commits r i = some (n, .ok resp) := by
  intro i hi
  obtain ⟨resp, hPost⟩ := Results.exists_of_mapM_ok h ((R.group r).peer i) (List.mem_map_of_mem hi)
  unfold HttpTrCosignTransport.postCommit recorded at hPost
  simp only [(R.group r).find_peer hi] at hPost
  rcases hTaken : s.commits r i with _ | ⟨n, e | resp'⟩
  · rw [hTaken] at hPost
    cases hPost
  · rw [hTaken] at hPost
    cases hPost
  · exact ⟨n, resp', rfl⟩

theorem collect_of_prepared {p : Prepared F} (h : R.prepared s r = some p) :
    ∃ rs, (R.transport s r).collectCommitments (R.commitRequest r) = .ok rs ∧
      prepareShares W (R.keyset.state (R.group r).localId) (R.session r) (R.message r)
        (R.group r).localId (F.tweak (R.keyset.key (R.group r).localId))
        (F.commit (F.tweak (R.keyset.key (R.group r).localId)) (R.own r)).1
        (F.commit (F.tweak (R.keyset.key (R.group r).localId)) (R.own r)).2 rs = .ok p := by
  unfold prepared at h
  split at h
  · cases h
  · rename_i rs hRound
    dsimp only at h
    split at h
    · cases h
    · rename_i p' hPrepare
      cases h
      exact ⟨rs, hRound, hPrepare⟩

theorem commits_of_prepared {p : Prepared F} (h : R.prepared s r = some p) :
    ∀ i ∈ (R.group r).peers, ∃ n resp, s.commits r i = some (n, .ok resp) := by
  obtain ⟨rs, hRound, -⟩ := collect_of_prepared h
  exact commits_of_collectCommitments hRound

/-- Answers that are taken stay, and so does what the run made of them. -/
theorem prepared_mono (hSame : ∀ i, (s.commits r i).isSome → s'.commits r i = s.commits r i)
    {p : Prepared F} (h : R.prepared s r = some p) : R.prepared s' r = some p := by
  have hTaken := commits_of_prepared h
  have : Nonempty TrCommitResponse := ⟨⟨"", "", ""⟩⟩
  choose! n resp hResp using hTaken
  have hAll : ∀ i ∈ (R.group r).peers, ∃ n, s.commits r i = some (n, .ok (resp i)) :=
    fun i hi => ⟨n i, hResp i hi⟩
  have hAll' : ∀ i ∈ (R.group r).peers, ∃ n, s'.commits r i = some (n, .ok (resp i)) :=
    fun i hi => ⟨n i, by rw [hSame i (by rw [hResp i hi]; rfl), hResp i hi]⟩
  have hRound := collectCommitments_recorded hAll (R.commitRequest r)
  have hRound' := collectCommitments_recorded hAll' (R.commitRequest r)
  unfold prepared at h ⊢
  rw [hRound] at h
  rw [hRound']
  exact h

/-- What the signers of a run drew for it. -/
def draws (R : CosignRuns F W ρ) (s : CosignState F ρ) (r : ρ) (i : F.Identifier) : Nat :=
  if i = (R.group r).localId then R.own r
  else ((s.commits r i).map Prod.fst).getD 0

theorem draws_local : R.draws s r (R.group r).localId = R.own r := if_pos rfl

theorem draws_peer (hi : i ∈ (R.group r).peers) {n : Nat}
    {answer : Except DomainError TrCommitResponse} (h : s.commits r i = some (n, answer)) :
    R.draws s r i = n := by
  have hNe : i ≠ (R.group r).localId := fun hEq => (R.group r).localId_notMem (hEq ▸ hi)
  rw [draws, if_neg hNe, h]
  rfl

end Answers

/-! ## What deliveries preserve -/

/-- The round that a delivery leaves. -/
def roundOf (d : Delivery F ρ) : Option (PendingTrRound F) :=
  d.commit.map fun n => ⟨(F.commit (F.tweak (R.keyset.key d.peer)) n).1, R.message d.run⟩

/-- A peer holds what the last request under a session id left. Answers that
were taken are those of honest peers, and a share that was taken is the share
for what its run has prepared. -/
structure Inv (s : CosignState F ρ) : Prop where
  names : ∀ i, (s.peers i).localNodeId = R.name i
  pending : ∀ i session,
    (s.peers i).pending.lookup session = (R.lastAt s.log i session).bind R.roundOf
  commits : ∀ r i a, s.commits r i = some a → i ∈ (R.group r).peers ∧
    ∃ resp, a.2 = .ok resp ∧ resp.nodeId = R.name i ∧
      decodeCommit W resp = .ok (i, (F.commit (F.tweak (R.keyset.key i)) a.1).2)
  taken : ∀ d ∈ s.log, ∀ n, d.commit = some n → d.taken = true →
    ∃ answer, s.commits d.run d.peer = some (n, answer)
  shares : ∀ r i a, s.shares r i = some a → i ∈ (R.group r).peers ∧
    ∃ p resp share, R.prepared s r = some p ∧ a = .ok (some resp) ∧
    F.sign p.package (R.keyset.nonces (R.draws s r) i) (F.tweak (R.keyset.key i)) = .ok share ∧
    decodeShare W (p.package.commitments.map Prod.fst) resp = .ok (some (i, share))

variable {R}

theorem inv_start : R.Inv R.start where
  names _ := rfl
  pending _ _ := rfl
  commits _ _ _ h := by cases h
  taken _ h := by cases h
  shares _ _ _ h := by cases h

/-- FROST is correct for the group of each run. -/
def Sound (R : CosignRuns F W ρ) : Prop :=
  ∀ r, R.keyset.Correct ((R.group r).localId :: (R.group r).peers) ∧
    R.keyset.threshold ≤ (R.group r).peers.length + 1

/-- A run whose first round is over is ready for its second. -/
theorem Inv.ready (hLaws : FrostLaws W) (hSound : R.Sound) {s : CosignState F ρ} (h : R.Inv s)
    {r : ρ} (hAll : ∀ i ∈ (R.group r).peers, (s.commits r i).isSome) :
    ∃ (resp : F.Identifier → TrCommitResponse) (p : Prepared F) (pkgBytes : List UInt8)
      (shares : F.Identifier → F.Share),
      (R.transport s r).collectCommitments (R.commitRequest r) =
        .ok ((R.group r).peers.map resp) ∧
      AllCommitted W (R.group r).name (R.keyset.commitments (R.draws s r)) resp (R.group r).peers ∧
      R.prepared s r = some p ∧
      Ready R.keyset (R.group r) (R.draws s r) (R.session r) (R.message r) p pkgBytes shares := by
  -- each peer answered with the commitments that it drew
  have hEach : ∀ i ∈ (R.group r).peers, ∃ resp n, s.commits r i = some (n, .ok resp) ∧
      decodeCommit W resp = .ok (i, R.keyset.commitments (R.draws s r) i) ∧
      resp.nodeId = (R.group r).name i := by
    intro i hi
    obtain ⟨⟨n, answer⟩, hTaken⟩ := Option.isSome_iff_exists.mp (hAll i hi)
    obtain ⟨-, resp, hAnswer, hNode, hDecode⟩ := h.commits r i _ hTaken
    obtain rfl : answer = .ok resp := hAnswer
    refine ⟨resp, n, hTaken, ?_, by rw [hNode, R.sameName]⟩
    rw [hDecode, Keyset.commitments, draws_peer hi hTaken]
  have : Nonempty TrCommitResponse := ⟨⟨"", "", ""⟩⟩
  -- the answers as functions of the peer, so that the first round is a map over them
  choose! resp n hTaken hDecode hNode using hEach
  have hRound := collectCommitments_recorded (R := R) (fun i hi => ⟨n i, hTaken i hi⟩)
    (R.commitRequest r)
  have hResp : AllCommitted W (R.group r).name (R.keyset.commitments (R.draws s r)) resp
      (R.group r).peers := ⟨hDecode, hNode⟩
  obtain ⟨p, pkgBytes, shares, hPrepare, hReady⟩ := prepareShares_honest (R.session r)
    (R.message r) hLaws (hSound r).1 (hSound r).2 hResp
  refine ⟨resp, p, pkgBytes, shares, hRound, hResp, ?_, hReady⟩
  unfold prepared
  rw [hRound]
  unfold Keyset.nonces Keyset.commitments at hPrepare
  rw [draws_local] at hPrepare
  simp only [hPrepare]

variable {s s' : CosignState F ρ} {r : ρ} {i : F.Identifier}

theorem lastAt_cons (d : Delivery F ρ) (log : List (Delivery F ρ)) (i : F.Identifier)
    (session : String) :
    R.lastAt (d :: log) i session =
      if d.peer = i ∧ R.session d.run = session then some d else R.lastAt log i session := by
  unfold lastAt
  rw [List.find?_cons]
  by_cases hAt : d.peer = i ∧ R.session d.run = session
  · rw [if_pos hAt, decide_eq_true hAt]
  · rw [if_neg hAt, decide_eq_false hAt]

theorem lastAt_some {log : List (Delivery F ρ)} {session : String} {d : Delivery F ρ}
    (h : R.lastAt log i session = some d) : d ∈ log ∧ d.peer = i ∧ R.session d.run = session := by
  have hAt := List.find?_some h
  exact ⟨List.mem_of_find?_eq_some h, of_decide_eq_true hAt⟩

theorem Inv.names_update (h : R.Inv s) {peer : TrCosignPeerState F}
    (hName : peer.localNodeId = (s.peers i).localNodeId) (j : F.Identifier) :
    (Function.update s.peers i peer j).localNodeId = R.name j := by
  by_cases hj : j = i
  · subst hj
    rw [Function.update_self, hName]
    exact h.names j
  · rw [Function.update_of_ne hj]
    exact h.names j

/-- A peer that keeps its other rounds holds what the last requests left. -/
theorem Inv.pending_cons (h : R.Inv s) {peer : TrCosignPeerState F} {d : Delivery F ρ}
    (hNew : ∀ session, peer.pending.lookup session =
      if R.session d.run = session then R.roundOf d
      else (s.peers d.peer).pending.lookup session) (j : F.Identifier) (session : String) :
    (Function.update s.peers d.peer peer j).pending.lookup session =
      (R.lastAt (d :: s.log) j session).bind R.roundOf := by
  rw [lastAt_cons]
  by_cases hj : j = d.peer
  · subst hj
    rw [Function.update_self, hNew]
    by_cases hSession : R.session d.run = session
    · rw [if_pos hSession, if_pos ⟨rfl, hSession⟩]
      rfl
    · rw [if_neg hSession, if_neg fun hBoth => hSession hBoth.2]
      exact h.pending _ _
  · rw [Function.update_of_ne hj, if_neg fun hBoth => hj hBoth.1.symm]
    exact h.pending _ _

/-- A share stays the share for what its run has prepared. -/
theorem Inv.shares_mono (h : R.Inv s)
    (hSame : ∀ r i, (s.commits r i).isSome → s'.commits r i = s.commits r i)
    {a : Except DomainError (Option TrSignShareResponse)} (hTaken : s.shares r i = some a) :
    i ∈ (R.group r).peers ∧ ∃ p resp share, R.prepared s' r = some p ∧ a = .ok (some resp) ∧
      F.sign p.package (R.keyset.nonces (R.draws s' r) i) (F.tweak (R.keyset.key i)) = .ok share ∧
      decodeShare W (p.package.commitments.map Prod.fst) resp = .ok (some (i, share)) := by
  obtain ⟨hi, p, resp, share, hPrepared, hAnswer, hSign, hDecode⟩ := h.shares r i a hTaken
  obtain ⟨n, commitResp, hCommit⟩ := commits_of_prepared hPrepared i hi
  have hSome : (s.commits r i).isSome := by
    rw [hCommit]
    rfl
  refine ⟨hi, p, resp, share, prepared_mono (hSame r) hPrepared, hAnswer, ?_, hDecode⟩
  rw [Keyset.nonces, draws_peer hi hCommit] at hSign
  rw [Keyset.nonces, draws_peer hi ((hSame r i hSome).trans hCommit)]
  exact hSign

/-- What a run has prepared it made of an honest first round. -/
theorem Inv.ready_of_prepared (hLaws : FrostLaws W) (hSound : R.Sound) (h : R.Inv s)
    {p : Prepared F} (hPrepared : R.prepared s r = some p) :
    ∃ pkgBytes shares,
      Ready R.keyset (R.group r) (R.draws s r) (R.session r) (R.message r) p pkgBytes shares := by
  have hAll : ∀ i ∈ (R.group r).peers, (s.commits r i).isSome := by
    intro j hj
    obtain ⟨m, resp, hCommit⟩ := commits_of_prepared hPrepared j hj
    rw [hCommit]
    rfl
  obtain ⟨-, p', pkgBytes, shares, -, -, hPrepared', hReady⟩ := h.ready hLaws hSound hAll
  obtain rfl : p = p' := Option.some.inj (hPrepared.symm.trans hPrepared')
  exact ⟨pkgBytes, shares, hReady⟩

/-- A sign-share that finds the commit of its run is answered with the share
its run asks for. -/
theorem share_of_taken (hLaws : FrostLaws W) (hSound : R.Sound) (h : R.Inv s) {p : Prepared F}
    (hPrepared : R.prepared s r = some p) (hi : i ∈ (R.group r).peers)
    (hNamed : HttpTrCosignTransport.named p.request ((R.group r).peer i) = true)
    {d : Delivery F ρ} (hLast : R.lastAt s.log i (R.session r) = some d) (hRun : d.run = r)
    (hCommit : d.commit.isSome) (hTaken : d.taken = true) :
    ∃ resp share,
      (TrCosignPeerState.handleSignShare (R.env i 0) p.request (s.peers i)).1 = .ok (some resp) ∧
      F.sign p.package (R.keyset.nonces (R.draws s r) i) (F.tweak (R.keyset.key i)) = .ok share ∧
      decodeShare W (p.package.commitments.map Prod.fst) resp = .ok (some (i, share)) := by
  obtain ⟨pkgBytes, shares, hReady⟩ := h.ready_of_prepared hLaws hSound hPrepared
  have hSome := (R.group r).lowest_ne_nil (hSound r).1.two_le (hSound r).2
  have hLow : i ∈ (R.group r).lowest R.keyset.threshold := by
    rw [HttpTrCosignTransport.named_asks hReady.asks hSome hi] at hNamed
    exact of_decide_eq_true hNamed
  -- the commit whose answer was taken is the one the round is from
  obtain ⟨hIn, hPeer, -⟩ := lastAt_some hLast
  obtain ⟨n, hn⟩ := Option.isSome_iff_exists.mp hCommit
  obtain ⟨answer, hAnswer⟩ := h.taken d hIn n hn hTaken
  rw [hRun, hPeer] at hAnswer
  have hPending : (s.peers i).pending.lookup p.request.sessionId =
      some ⟨R.keyset.nonces (R.draws s r) i, p.package.message⟩ := by
    rw [hReady.asks.session, h.pending, hLast, hReady.sameMessage, Keyset.nonces,
      draws_peer hi hAnswer, Option.bind_some, roundOf, hn, hRun, hPeer]
    rfl
  have hSign := hReady.shares i (List.mem_cons_of_mem _ hLow)
  obtain ⟨resp, hAnswer, hDecode⟩ := handleSignShare_honest hLaws (R.env i 0) rfl rfl p.request
    (s.peers i) (by
      rw [h.names, ← R.sameName r]
      exact (hReady.asks.nodes _).mpr ⟨i, hLow, rfl⟩)
    hReady.asks.package hReady.decodes hPending
    (hReady.asks.signers.mem_iff.mpr (List.mem_cons_of_mem _ hLow)) hSign
  exact ⟨resp, _, hAnswer, hSign, hDecode⟩

/-! ## What the runs get -/

/-- The second round of a run yields the shares of the lowest peers, if it took
all of them. -/
theorem collectSignatureShares_recorded (h : R.Inv s)
    (hSound : R.keyset.Correct ((R.group r).localId :: (R.group r).peers) ∧
      R.keyset.threshold ≤ (R.group r).peers.length + 1)
    {p : Prepared F} (hPrepared : R.prepared s r = some p) {pkgBytes : List UInt8}
    {shares : F.Identifier → F.Share}
    (hReady : Ready R.keyset (R.group r) (R.draws s r) (R.session r) (R.message r) p pkgBytes shares)
    (hShares : ∀ i ∈ (R.group r).lowest R.keyset.threshold, (s.shares r i).isSome) :
    ∃ (ids : List F.Identifier) (resp : F.Identifier → TrSignShareResponse),
      ids.Perm ((R.group r).lowest R.keyset.threshold) ∧
      (R.transport s r).collectSignatureShares p.request = .ok (ids.map resp) ∧
      Shared W (p.package.commitments.map Prod.fst) shares resp ids := by
  -- each of the lowest peers answered with its share of this package
  have hEach : ∀ i ∈ (R.group r).lowest R.keyset.threshold, ∃ resp,
      s.shares r i = some (.ok (some resp)) ∧
      decodeShare W (p.package.commitments.map Prod.fst) resp = .ok (some (i, shares i)) := by
    intro i hLow
    obtain ⟨a, hTaken⟩ := Option.isSome_iff_exists.mp (hShares i hLow)
    obtain ⟨-, p', resp, share, hPrepared', rfl, hSign, hDecode⟩ := h.shares r i a hTaken
    obtain rfl : p = p' := Option.some.inj (hPrepared.symm.trans hPrepared')
    have hSame := hReady.shares i (List.mem_cons_of_mem _ hLow)
    obtain rfl : share = shares i := Except.ok.inj (hSign.symm.trans hSame)
    exact ⟨resp, hTaken, hDecode⟩
  have : Nonempty TrSignShareResponse := ⟨⟨"", "", ""⟩⟩
  choose! resp hTaken hDecode using hEach
  -- the peers that are asked are the lowest ones, in the order of the group
  have hLow : ∀ i ∈ (R.group r).peers.filter fun i =>
      decide (i ∈ (R.group r).lowest R.keyset.threshold),
      i ∈ (R.group r).lowest R.keyset.threshold := fun i hi =>
    of_decide_eq_true (List.mem_filter.mp hi).2
  refine ⟨_, resp, (R.group r).filter_lowest_perm R.keyset.threshold, ?_,
    fun i hi => hDecode i (hLow i hi)⟩
  have hSome := (R.group r).lowest_ne_nil hSound.1.two_le hSound.2
  refine (HttpTrCosignTransport.collectSignatureShares_asks hReady.asks hSome _).trans
    (Results.mapM_map_ok fun i hi => ?_)
  unfold HttpTrCosignTransport.postSignShare recorded
  simp only [(R.group r).find_peer (List.mem_filter.mp hi).1, hTaken i (hLow i hi),
    v1FrostTrSignShare]
  rfl

/-- Under the invariant a run whose requests are answered has a signature. -/
theorem Inv.completes (hLaws : FrostLaws W) (hSound : R.Sound) (h : R.Inv s) : R.Completes s := by
  refine ⟨?_, ?_, ?_⟩
  · intro r i a hTaken
    obtain ⟨-, resp, hAnswer, -⟩ := h.commits r i a hTaken
    exact ⟨resp, hAnswer⟩
  · intro r i a hTaken
    obtain ⟨-, -, resp, -, -, hAnswer, -⟩ := h.shares r i a hTaken
    exact ⟨resp, hAnswer⟩
  · rintro r ⟨hCommits, hShares⟩
    -- the answers that were taken are those of honest peers in both rounds, so that the run is
    -- one of `signRawWire_honest`
    obtain ⟨resp, p, pkgBytes, shares, hRound, hResp, hPrepared, hReady⟩ :=
      h.ready hLaws hSound hCommits
    obtain ⟨rs, hRound', hPrepare⟩ := collect_of_prepared hPrepared
    obtain rfl : rs = (R.group r).peers.map resp := Except.ok.inj (hRound'.symm.trans hRound)
    have hRun := signRawWire_honest hLaws (hSound r).1 (hSound r).2 hRound hResp
      fun p' pkgBytes' shares' hPrepare' hReady' => by
        obtain rfl : p = p' := by
          unfold Keyset.nonces Keyset.commitments at hPrepare'
          rw [draws_local] at hPrepare'
          exact Except.ok.inj (hPrepare.symm.trans hPrepare')
        exact collectSignatureShares_recorded h (hSound r) hPrepared hReady' hShares
    rw [draws_local] at hRun
    exact hRun

/-! ## Every clear delivery -/

variable [DecidableEq ρ]

section Take

variable {α : Type} {answers : ρ → F.Identifier → Option α} {answered : Bool} {a : α} {r' : ρ}
  {i' : F.Identifier}

/-- An answer that was taken stays. -/
theorem take_of_isSome (h : (answers r' i').isSome) :
    take answers r i answered a r' i' = answers r' i' := by
  refine if_neg fun ⟨hr, hi, hNew⟩ => ?_
  subst hr hi
  rw [Bool.and_eq_true, Option.isNone_iff_eq_none] at hNew
  rw [hNew.2] at h
  cases h

theorem take_eq_some {b : α} (h : take answers r i answered a r' i' = some b) :
    answers r' i' = some b ∨
      (r' = r ∧ i' = i ∧ (answered && (answers r i).isNone) = true ∧ b = a) := by
  unfold take at h
  split at h
  · rename_i hNew
    exact .inr ⟨hNew.1, hNew.2.1, hNew.2.2, (Option.some.inj h).symm⟩
  · exact .inl h

theorem take_self (h : (answered && (answers r i).isNone) = true) :
    take answers r i answered a r i = some a := if_pos ⟨rfl, rfl, h⟩

end Take

/-- A commit is answered, and its round waits. -/
theorem inv_commit (hLaws : FrostLaws W) (h : R.Inv s) (hi : i ∈ (R.group r).peers) {n : Nat}
    {answered : Bool} : R.Inv (R.step s (.commit r i n answered)) := by
  obtain ⟨resp, hHandle, hNode, hDecode⟩ := handleCommit_honest hLaws (R.env i n) rfl
    (R.commitRequest r) rfl (s.peers i)
  -- an answer that was recorded is not overwritten
  have hSame : ∀ r' i', (s.commits r' i').isSome →
      take s.commits r i answered (n, Except.ok resp) r' i' = s.commits r' i' :=
    fun _ _ hSome => take_of_isSome hSome
  unfold step
  simp only [if_pos hi, hHandle]
  refine ⟨h.names_update rfl, ?_, ?_, ?_, fun r' i' a hTaken => h.shares_mono hSame hTaken⟩
  · -- the round that waits under the session is the new one
    refine h.pending_cons (d := ⟨r, i, some n, _⟩) fun session => ?_
    by_cases hSession : R.session r = session
    · subst hSession
      rw [if_pos rfl]
      exact AList.lookup_insert _
    · rw [if_neg hSession]
      exact AList.lookup_insert_ne (Ne.symm hSession)
  · intro r' i' a hTaken
    rcases take_eq_some hTaken with hOld | ⟨rfl, rfl, -, rfl⟩
    · exact h.commits r' i' a hOld
    · exact ⟨hi, resp, rfl, hNode.trans (h.names i'), hDecode⟩
  · intro d hd m hCommit hTaken
    rcases List.mem_cons.mp hd with rfl | hOld
    · obtain rfl : n = m := Option.some.inj hCommit
      exact ⟨.ok resp, take_self hTaken⟩
    · obtain ⟨answer, hAnswer⟩ := h.taken d hOld m hCommit hTaken
      exact ⟨answer, (hSame _ _ (by rw [hAnswer]; rfl)).trans hAnswer⟩

/-- A clear sign-share takes at most the share its run asks for. -/
theorem inv_signShare (hLaws : FrostLaws W) (hSound : R.Sound) (h : R.Inv s) {answered : Bool}
    (hClear : R.Clear s (.signShare r i answered)) :
    R.Inv (R.step s (.signShare r i answered)) := by
  unfold step
  dsimp only
  split
  · exact h
  · rename_i p hPrepared
    by_cases hAsked : i ∈ (R.group r).peers ∧
        HttpTrCosignTransport.named p.request ((R.group r).peer i) = true
    · rw [if_pos hAsked, TrCosignPeerState.handleSignShare_state]
      obtain ⟨pkgBytes, shares, hReady⟩ := h.ready_of_prepared hLaws hSound hPrepared
      refine ⟨h.names_update rfl, ?_, h.commits, ?_, ?_⟩
      · refine h.pending_cons (d := ⟨r, i, none, _⟩) fun session => ?_
        -- the round of the session is taken out, and the others stay
        rw [hReady.asks.session]
        by_cases hSession : R.session r = session
        · subst hSession
          rw [if_pos rfl]
          exact AList.lookup_erase _ _
        · rw [if_neg hSession]
          exact AList.lookup_erase_ne (Ne.symm hSession)
      · intro d hd n hCommit hTaken
        rcases List.mem_cons.mp hd with rfl | hOld
        · cases hCommit
        · exact h.taken d hOld n hCommit hTaken
      · intro r' i' a hTaken
        rcases take_eq_some hTaken with hOld | ⟨rfl, rfl, hNew, rfl⟩
        · exact h.shares_mono (fun _ _ _ => rfl) hOld
        · obtain ⟨d, hLast, hRun, hCommit, hTaken⟩ := hClear.finds hNew
          obtain ⟨resp, share, hAnswer, hSign, hDecode⟩ := share_of_taken hLaws hSound h hPrepared
            hAsked.1 hAsked.2 hLast hRun hCommit hTaken
          exact ⟨hAsked.1, p, resp, share, prepared_mono (fun _ _ => rfl) hPrepared, hAnswer, hSign,
            hDecode⟩
    · rw [if_neg hAsked]
      exact h

/-- Every clear delivery preserves the invariant. -/
theorem inv_step (hLaws : FrostLaws W) (hSound : R.Sound) (e : CosignStep F ρ) (h : R.Inv s)
    (hClear : R.Clear s e) : R.Inv (R.step s e) := by
  rcases e with ⟨r, i, n, answered⟩ | ⟨r, i, answered⟩
  · by_cases hi : i ∈ (R.group r).peers
    · exact inv_commit hLaws h hi
    · unfold step
      simp only [if_neg hi]
      exact h
  · exact inv_signShare hLaws hSound h hClear

theorem log_step (s : CosignState F ρ) (e : CosignStep F ρ) :
    (R.step s e).log = s.log ∨
      ∃ d : Delivery F ρ, d.run = e.run ∧ d.peer = e.peer ∧ (R.step s e).log = d :: s.log := by
  rcases e with ⟨r, i, n, answered⟩ | ⟨r, i, answered⟩
  · unfold step
    dsimp only
    split
    · exact .inr ⟨_, rfl, rfl, rfl⟩
    · exact .inl rfl
  · unfold step
    dsimp only
    split
    · exact .inl rfl
    · split
      · exact .inr ⟨_, rfl, rfl, rfl⟩
      · exact .inl rfl

/-- A clear delivery leaves the rounds of other runs alone. -/
theorem undisturbed_of_clear (hLaws : FrostLaws W) (hSound : R.Sound) {e : CosignStep F ρ}
    (h : R.Inv s) (hClear : R.Clear s e) : R.Undisturbed s e := by
  intro i session round d hRound hLast hOther
  have hRoundOf := hRound
  rw [h.pending, hLast] at hRoundOf
  have hCommit : d.commit.isSome := by
    rcases hNone : d.commit with _ | n
    · rw [Option.bind_some, roundOf, hNone] at hRoundOf
      cases hRoundOf
    · rfl
  have hElsewhere : ¬ (e.peer = i ∧ R.session e.run = session) := by
    rintro ⟨rfl, rfl⟩
    exact hOther (hClear.others d hLast hCommit)
  -- what waits elsewhere is what the last request there left
  have hLast' : R.lastAt (R.step s e).log i session = some d := by
    rcases log_step (R := R) s e with hLog | ⟨d', hRun, hPeer, hLog⟩
    · rw [hLog]
      exact hLast
    · rw [hLog, lastAt_cons, hRun, hPeer, if_neg hElsewhere]
      exact hLast
  rw [(inv_step hLaws hSound e h hClear).pending, hLast']
  exact hRoundOf

/--
**Overlapping runs.** Over every interleaving of clear deliveries, in each
state every run whose requests are all answered has a signature, no answer that
was taken is an error, and no delivery disturbs the round of another run.
-/
theorem completes_of_clear (hLaws : FrostLaws W) (hSound : R.Sound) {es : List (CosignStep F ρ)}
    (h : Runs.EveryStep R.step R.Clear R.start es) :
    Runs.EveryState R.step R.Completes R.start es ∧
      Runs.EveryStep R.step R.Undisturbed R.start es := by
  have hInv : Runs.EveryState R.step R.Inv R.start es :=
    Runs.EveryState.of_everyStep (fun _ e hs hClear => inv_step hLaws hSound e hs hClear)
      inv_start h
  exact ⟨hInv.mono fun _ hs => hs.completes hLaws hSound,
    Runs.EveryStep.of_everyState (D := R.Undisturbed)
      (fun _ _ hs _ hClear => undisturbed_of_clear hLaws hSound hs hClear) hInv h⟩

end CosignRuns

/-! ## Two runs of two nodes -/

/-- Two runs of the first of two nodes, each for its own message. -/
def twoRuns (message : Bool → List UInt8) : CosignRuns plainFrost plainCoordinator Bool where
  keyset := plainKeyset (fun i => 10 * i) 2
  name := twoNodes.name
  group _ := twoNodes
  sameName _ := rfl
  session r := trWireSession plainFrost (List.take 16) (message r)
  message := message
  own _ := 5

theorem twoRuns_sound (message : Bool → List UInt8) : (twoRuns message).Sound :=
  fun _ => ⟨plainKeyset_correct (by decide) _, Nat.le_refl 2⟩

/-- The runs take turns; the first commit of the second run is lost. -/
def takingTurns : List (CosignStep plainFrost Bool) :=
  [.commit false (2 : UInt8) 6 true, .commit true (2 : UInt8) 7 false,
    .commit true (2 : UInt8) 8 true, .signShare false (2 : UInt8) true,
    .signShare true (2 : UInt8) true]

theorem completes_of_clear_takingTurns :
    Runs.EveryState (twoRuns fun r => if r then [1] else [2]).step
        (twoRuns fun r => if r then [1] else [2]).Completes
        (twoRuns fun r => if r then [1] else [2]).start takingTurns ∧
      Runs.EveryStep (twoRuns fun r => if r then [1] else [2]).step
        (twoRuns fun r => if r then [1] else [2]).Undisturbed
        (twoRuns fun r => if r then [1] else [2]).start takingTurns :=
  CosignRuns.completes_of_clear plainFrost_laws (twoRuns_sound _) (by decide +kernel)

/-- Both runs are for one message: the second commit replaces the first run's
nonces, and its share is refused. -/
theorem sameMessage_not_completes :
    ¬ Runs.EveryState (twoRuns fun _ => [7]).step (twoRuns fun _ => [7]).Completes
      (twoRuns fun _ => [7]).start
      [.commit false (2 : UInt8) 6 true, .commit true (2 : UInt8) 7 true,
        .signShare false (2 : UInt8) true] := by
  intro h
  have hOnly : ∀ i ∈ twoNodes.peers, i = (2 : UInt8) := fun i hi => List.mem_singleton.mp hi
  obtain ⟨signature, hSigned⟩ := h.last.signature false ⟨fun i hi => by
      obtain rfl := hOnly i hi
      decide +kernel, fun i hi => by
      obtain rfl := hOnly i (twoNodes.lowest_subset _ hi)
      decide +kernel⟩
  have hFails : ((twoRuns fun _ => [7]).outcome (Runs.run (twoRuns fun _ => [7]).step
      (twoRuns fun _ => [7]).start [.commit false (2 : UInt8) 6 true,
        .commit true (2 : UInt8) 7 true, .signShare false (2 : UInt8) true]) false).isOk = false := by
    decide +kernel
  rw [hSigned] at hFails
  cases hFails

end KeroseneVault
