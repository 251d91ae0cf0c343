import KeroseneVault.Http.Handlers
import KeroseneVault.Ledger.Backing

/-!
# Signed spend and reserved spend

Every signed PSBT should rely on a reservation that `reserve_spend` made here
on its own terms, no reservation on more than one, so that a bucket never pays
out more than is recorded for it. The handlers do not keep this on every run:
a sign-only request takes any reservation under its id, a peer's soft prepare
included, and a reservation may expire or be released under a signature.

* `SignedCovered` — what should hold of a node;
* `SafeCall` — the condition on a call, read off the state before it;
* `Sound` — the invariant: the ledger backs the spends of all signing requests.

Main results:

* `Sound.step` — a safe call keeps the invariant;
* `signedCovered_of_safeCalls` — along a run of safe calls signed spend is
  covered in every state;
* `signOnPeersPrepare_not_covered` — a run on which it is not.
-/

namespace KeroseneVault

open BucketState Tally

/-! ## The law -/

def Made.spend (m : Made) : Spend := ⟨m.id, m.bucket, m.amount⟩

namespace HttpNode

/-- The signing requests that passed their check: waiting, or signed. -/
def uses (s : HttpNode) : List PsbtUse :=
  s.pending.map PendingSign.use ++ s.signed.map SignedPsbt.use

def spends (s : HttpNode) : List Spend := s.uses.map fun u => u.terms.spend

/-- A reservation that goes ahead finds no reservation in use expired, and its
amount does not saturate the counter. -/
def SafeReserve (cfg : HttpConfig) (env : HttpEnv) (s : HttpNode) (intent : SettlementIntent) :
    Prop :=
  ∀ validate,
    GateIntent.check cfg.isAddress env.constitution env.economy intent = .ok validate →
    Unexpired s.ledger.inner s.spends env.now ∧
      ((s.ledger.inner.sweepExpired env.now).Accepts intent.intentId intent.bucket validate →
        (s.ledger.inner.sweepExpired env.now).Fits intent.bucket intent.amountSats)

/-- A sign-only request finds no reservation in use expired. The one it finds
under its id was made on its own terms and is not in use. -/
def SafeSignOnly (cfg : HttpConfig) (env : HttpEnv) (s : HttpNode) (req : BitcoinPsbtBody)
    (bucket : BucketKind) : Prop :=
  let id := req.intentIdOrSession
  let destination := req.destination.getD ""
  Unexpired s.ledger.inner s.spends env.now ∧
    (¬ (destination = "" ∨ req.amountOrZero = 0) → cfg.validateDestination destination = .ok () →
      ∀ r, (s.ledger.inner.sweepExpired env.now).reserved.lookup id = some r →
        r.kind = bucket ∧ r.amount = req.amountOrZero ∧
          s.made id = some ⟨id, bucket, destination, req.amountOrZero⟩ ∧
          id ∉ s.spends.map Spend.id)

/-- A signing request that reaches the ledger is safe there. -/
def SafeSign (cfg : HttpConfig) (env : HttpEnv) (s : HttpNode) (req : BitcoinPsbtBody) : Prop :=
  ∀ bucket, env.authorizeTreasurySign = .ok () →
    BucketKind.parse (req.bucket.getD "USERS") = .ok bucket → assertTaprootBucket bucket = .ok () →
    if req.commitIntent then
      ∀ intent, buildSettlementIntent cfg env (some req.intentIdOrSession)
          (some (req.bucket.getD "USERS")) ((some (req.destination.getD "")).filter (· ≠ ""))
          req.amountSats (bucket == .users) = .ok intent →
        SafeReserve cfg env s intent.1
    else SafeSignOnly cfg env s req bucket

/-- The condition on a call. A commit, a durable prepare and a signature are
always safe. -/
def SafeCall (cfg : HttpConfig) (s : HttpNode) (c : HttpCall) : Prop :=
  match c.op with
  | .reserve body =>
    ∀ intent, parseSettlementIntent cfg c.env body = .ok intent → SafeReserve cfg c.env s intent.1
  | .release intentId bucket amountSats =>
    -- what is released is a reservation nobody relies on, or nothing
    ∀ kind, BucketKind.parse bucket = .ok kind →
      s.ledger.inner.ReleaseBacked intentId kind amountSats.1 ∧
        (s.ledger.inner.reserved.lookup intentId ≠ none → intentId ∉ s.spends.map Spend.id)
  | .prepare _ durable =>
    durable = false → c.env.prepareLimiter = .ok () →
      Unexpired s.ledger.inner s.spends c.env.now
  | .sweep => Unexpired s.ledger.inner s.spends c.env.now
  | .signBegin req => SafeSign cfg c.env s req
  | .commit _ | .signFinish _ => True

/-! ## The invariant -/

/-- The ledger backs the spends of all signing requests; each relied on its
own terms, and what was signed pays out no more than its amount. -/
structure Sound (s : HttpNode) : Prop where
  backing : Backing s.ledger.inner s.spends
  relied : ∀ u ∈ s.uses, u.reliedOn = some u.terms
  bound : ∀ e ∈ s.signed, payout e.change e.psbt ≤ e.use.terms.amount

/-- Requests and signatures as they were, the ledger moved. -/
theorem Sound.moveLedger {s s' : HttpNode} (h : Sound s) (hPending : s'.pending = s.pending)
    (hSigned : s'.signed = s.signed) (hBacking : Backing s'.ledger.inner s.spends) : Sound s' := by
  have hUses : s'.uses = s.uses := by rw [uses, uses, hPending, hSigned]
  have hSpends : s'.spends = s.spends := by rw [spends, spends, hUses]
  constructor
  · rw [hSpends]
    exact hBacking
  · rw [hUses]
    exact h.relied
  · rw [hSigned]
    exact h.bound

/-- One more request waits; its spend is backed already. -/
theorem Sound.await {s s' : HttpNode} (h : Sound s) {p : PendingSign}
    (hPending : s'.pending = s.pending) (hSigned : s'.signed = s.signed)
    (hBacking : Backing s'.ledger.inner (p.use.terms.spend :: s.spends))
    (hRelied : p.use.reliedOn = some p.use.terms) : Sound (s'.await p) := by
  have hUses : (s'.await p).uses.Perm (p.use :: s.uses) := by
    simp only [uses, HttpNode.await, hPending, hSigned, List.map_append, List.map_cons,
      List.map_nil, List.append_assoc, List.singleton_append]
    exact List.perm_middle
  constructor
  · have hSpends : (s'.await p).spends.Perm (p.use.terms.spend :: s.spends) :=
      hUses.map fun u : PsbtUse => u.terms.spend
    exact hBacking.perm hSpends.symm
  · intro u hu
    rcases List.mem_cons.mp (hUses.mem_iff.mp hu) with rfl | hOld
    · exact hRelied
    · exact h.relied u hOld
  · show ∀ e ∈ s'.signed, payout e.change e.psbt ≤ e.use.terms.amount
    rw [hSigned]
    exact h.bound

variable {cfg : HttpConfig} {env : HttpEnv} {s : HttpNode}

/-! ## Reservations -/

/-- What the gate's closure accepts is not void. -/
theorem pos_of_accepts {g : BucketState} {intent : SettlementIntent} {validate : Validate}
    (hCheck : GateIntent.check cfg.isAddress env.constitution env.economy intent = .ok validate)
    (hAccepts : g.Accepts intent.intentId intent.bucket validate) : 0 < intent.amountSats := by
  obtain ⟨eco, hash, rfl⟩ := GateIntent.check_ok _ hCheck
  have hValid := hAccepts.2.2
  unfold BucketState.validated at hValid
  split at hValid
  · cases hValid
  · exact (gateValidate_ok _ hValid).1

/-- The gate's reservation loses nothing in use; if it returned Ok it found the
id free and left it reserved on the intent's terms. -/
theorem Sound.gateReserve (h : Sound s) {intent : SettlementIntent}
    (hSafe : SafeReserve cfg env s intent) :
    let r := GateIntent.run cfg.isAddress env.constitution env.economy
      (QuorumBucketLedger.perform cfg.quorumT env.now env.disk env.soft env.durable)
      .reserve intent s.ledger
    let e : Spend := ⟨intent.intentId, intent.bucket, intent.amountSats⟩
    Backing r.2.inner s.spends ∧ ∀ receipt, r.1 = .ok receipt →
      receipt = GateIntent.receipt .reserve intent ∧ 0 < intent.amountSats ∧
      (s.ledger.inner.sweepExpired env.now).reserved.lookup intent.intentId = none ∧
      e.ReservedIn r.2.inner ∧ e.id ∉ s.spends.map Spend.id := by
  intro r e
  -- a refusal before the ledger, or the ledger's own answer
  cases hCheck : GateIntent.check cfg.isAddress env.constitution env.economy intent with
  | error err =>
    have hRun : r = (.error err, s.ledger) := by simp [r, GateIntent.run, hCheck]
    rw [hRun]
    exact ⟨h.backing, fun receipt hReceipt => by cases hReceipt⟩
  | ok validate =>
    obtain ⟨hTtl, hFits⟩ := hSafe validate hCheck
    have hReserve := h.backing.reserveSpend (t := cfg.quorumT) env.soft (e := e) hTtl hFits
    simp only [r, GateIntent.run, hCheck, GateIntent.portOp, QuorumBucketLedger.perform]
    simp only [e] at hReserve
    generalize QuorumBucketLedger.reserveSpend cfg.quorumT env.now env.soft intent.intentId
      intent.bucket intent.amountSats validate s.ledger = answer at hReserve
    obtain ⟨outcome, l⟩ := answer
    cases outcome with
    | error err => exact ⟨hReserve.1, fun receipt hReceipt => by cases hReceipt⟩
    | ok =>
      obtain ⟨hAccepts, hReserved, hUnused⟩ := hReserve.2 rfl
      refine ⟨hReserve.1, fun receipt hReceipt => ?_⟩
      exact ⟨(Except.ok.inj hReceipt).symm, pos_of_accepts hCheck hAccepts, hAccepts.2.1,
        hReserved, hUnused⟩

/-- The reservation it leaves is recorded as made for the intent. -/
theorem Sound.reserveIntent (h : Sound s) {intent : SettlementIntent}
    (hSafe : SafeReserve cfg env s intent) :
    let r := HttpNode.reserveIntent cfg env intent s
    let terms : Made := ⟨intent.intentId, intent.bucket, intent.destination, intent.amountSats⟩
    Backing r.2.ledger.inner s.spends ∧ ∀ receipt, r.1 = .ok receipt →
      receipt = GateIntent.receipt .reserve intent ∧
      Backing r.2.ledger.inner (terms.spend :: s.spends) ∧
      r.2.liveMade r.2.ledger.inner intent.intentId = some terms := by
  have hGate := h.gateReserve hSafe
  simp only [HttpNode.reserveIntent]
  generalize GateIntent.run cfg.isAddress env.constitution env.economy
    (QuorumBucketLedger.perform cfg.quorumT env.now env.disk env.soft env.durable)
    .reserve intent s.ledger = answer at hGate
  refine ⟨hGate.1, fun receipt hReceipt => ?_⟩
  obtain ⟨hSame, hPos, hNone, hReserved, hUnused⟩ := hGate.2 receipt hReceipt
  refine ⟨hSame, hGate.1.cons hReserved hUnused, ?_⟩
  obtain ⟨r, hr, -, hAmount⟩ := hReserved
  have hLive : 0 < r.amount := hAmount ▸ hPos
  simp [liveMade, hr, hLive, hNone]

/-! ## Signing -/

/-- An empty destination is no destination. -/
theorem filter_ne_empty_getD (d : String) :
    ((some d).filter (· ≠ "")).getD "" = d := by
  by_cases hEmpty : d = "" <;> simp [Option.filter, hEmpty]

/-- A signing request that reserves its intent first. -/
theorem Sound.signReserve (h : Sound s) {req : BitcoinPsbtBody} {bucket : BucketKind}
    (hSafe : ∀ intent, buildSettlementIntent cfg env (some req.intentIdOrSession)
        (some (req.bucket.getD "USERS")) ((some (req.destination.getD "")).filter (· ≠ ""))
        req.amountSats (bucket == .users) = .ok intent → SafeReserve cfg env s intent.1) :
    Sound (s.signReserve cfg env req bucket).2 := by
  unfold HttpNode.signReserve
  dsimp only
  cases hBuild : buildSettlementIntent cfg env (some req.intentIdOrSession)
      (some (req.bucket.getD "USERS")) ((some (req.destination.getD "")).filter (· ≠ ""))
      req.amountSats (bucket == .users) with
  | error e => exact h
  | ok intent =>
    have hReserve := h.reserveIntent (hSafe intent hBuild)
    have hPending : (HttpNode.reserveIntent cfg env intent.1 s).2.pending = s.pending := rfl
    have hSigned : (HttpNode.reserveIntent cfg env intent.1 s).2.signed = s.signed := rfl
    dsimp only
    generalize HttpNode.reserveIntent cfg env intent.1 s = answer at hReserve hPending hSigned
    obtain ⟨outcome, s'⟩ := answer
    cases outcome with
    | error e => exact h.moveLedger hPending hSigned hReserve.1
    | ok receipt =>
      obtain ⟨rfl, hBacking, hLive⟩ := hReserve.2 receipt rfl
      obtain ⟨hDestination, hAmount⟩ := buildSettlementIntent_ok hBuild
      -- the request's terms are those of the intent it built
      rw [filter_ne_empty_getD] at hDestination
      rw [hDestination] at hBacking hLive
      refine h.await hPending hSigned ?_ ?_
      · show Backing s'.ledger.inner (⟨intent.1.intentId, intent.1.bucket, req.amountOrZero⟩ :: _)
        rw [BitcoinPsbtBody.amountOrZero, ← hAmount]
        exact hBacking
      · show s'.liveMade s'.ledger.inner intent.1.intentId = _
        rw [hLive, hAmount]
        rfl

/-- A sign-only request, on a reservation that is its own. -/
theorem Sound.signOnly (h : Sound s) {req : BitcoinPsbtBody} {bucket : BucketKind}
    (hSafe : SafeSignOnly cfg env s req bucket) :
    Sound (s.signOnly cfg env req bucket).2 := by
  obtain ⟨hTtl, hOwn⟩ := hSafe
  have hSwept := h.backing.sweepExpired hTtl
  unfold HttpNode.signOnly PersistedBucketLedger.hasReservation
  dsimp only
  generalize s.ledger.inner.sweepExpired env.now = g at hSwept hOwn
  have hMoved : Sound { s with ledger := { s.ledger with inner := g } } :=
    h.moveLedger rfl rfl hSwept
  split
  · exact hMoved
  · rename_i hLive
    obtain ⟨r, hr⟩ : ∃ r, g.reserved.lookup req.intentIdOrSession = some r := by
      simpa [Option.ne_none_iff_exists'] using hLive
    split
    · exact hMoved
    · rename_i hFilled
      split
      · exact hMoved
      · rename_i hDestination
        obtain ⟨hKind, hAmount, hMade, hUnused⟩ := hOwn hFilled hDestination r hr
        refine h.await rfl rfl (hSwept.cons ⟨r, hr, hKind, hAmount⟩ hUnused) ?_
        -- a reservation that `reserve_spend` made holds an amount
        have hPos : 0 < r.amount := by omega
        simp [liveMade, hr, hPos, hMade]

/-- The first half of a signing request. -/
theorem Sound.signBegin (h : Sound s) {req : BitcoinPsbtBody} (hSafe : SafeSign cfg env s req) :
    Sound (s.signBegin cfg env req).2 := by
  unfold HttpNode.signBegin
  split
  · exact h
  · rename_i hAuth
    split
    · exact h
    · rename_i bucket hBucket
      split
      · exact h
      · rename_i hTaproot
        have hSafe := hSafe bucket hAuth hBucket hTaproot
        split
        · rename_i hCommit
          rw [if_pos hCommit] at hSafe
          exact h.signReserve hSafe
        · rename_i hCommit
          rw [if_neg hCommit] at hSafe
          exact h.signOnly hSafe

/-- What was signed pays out at most its amount. -/
theorem payout_le_of_signCheck {p : PendingSign} {change : Script}
    (h : signCheck cfg env p = .ok change) : payout change p.psbt ≤ p.use.terms.amount := by
  unfold signCheck at h
  split at h
  · cases h
  · split at h
    · cases h
    · split at h
      · cases h
      · rename_i hSign
        cases h
        unfold trSignPsbt at hSign
        split at hSign
        · cases hSign
        · split at hSign
          · cases hSign
          · rename_i hBind
            exact payout_le hBind

/-- A request that is signed moves from the waiting to the signed ones. -/
theorem Sound.sign (h : Sound s) {n : Nat} {p : PendingSign} (hp : s.pending[n]? = some p)
    {change : Script} (hBound : payout change p.psbt ≤ p.use.terms.amount) :
    Sound { s with
      pending := s.pending.eraseIdx n
      signed := ⟨p.use, p.psbt, change⟩ :: s.signed } := by
  obtain ⟨hn, rfl⟩ := List.getElem?_eq_some_iff.mp hp
  have hUses : List.Perm s.uses (uses { s with pending := s.pending.eraseIdx n, signed :=
      ⟨s.pending[n].use, s.pending[n].psbt, change⟩ :: s.signed }) := by
    -- taken out of the queue, put in front of the signed ones
    have hPending : (s.pending.map PendingSign.use).Perm
        (s.pending[n].use :: (s.pending.eraseIdx n).map PendingSign.use) :=
      (List.getElem_cons_eraseIdx_perm hn).symm.map PendingSign.use
    exact (hPending.append_right _).trans List.perm_middle.symm
  constructor
  · exact h.backing.perm (hUses.map fun u : PsbtUse => u.terms.spend)
  · exact fun u hu => h.relied u (hUses.mem_iff.mpr hu)
  · intro e he
    rcases List.mem_cons.mp he with rfl | hOld
    · exact hBound
    · exact h.bound e hOld

/-- A request that fails leaves the queue and takes its reservation along. -/
theorem Sound.signFail (h : Sound s) {n : Nat} {p : PendingSign} (hp : s.pending[n]? = some p)
    (refusal : Refusal) :
    Sound (HttpNode.signFail p refusal { s with pending := s.pending.eraseIdx n }).2 := by
  obtain ⟨hn, rfl⟩ := List.getElem?_eq_some_iff.mp hp
  have hUses : List.Perm s.uses
      (s.pending[n].use :: uses { s with pending := s.pending.eraseIdx n }) :=
    ((List.getElem_cons_eraseIdx_perm hn).symm.map PendingSign.use).append_right _
  have hBacking : Backing s.ledger.inner (s.pending[n].use.terms.spend ::
      spends { s with pending := s.pending.eraseIdx n }) :=
    h.backing.perm (hUses.map fun u : PsbtUse => u.terms.spend)
  have hLeft : Sound { s with pending := s.pending.eraseIdx n } :=
    ⟨hBacking.tail, fun u hu => h.relied u (hUses.mem_iff.mpr (List.mem_cons_of_mem _ hu)), h.bound⟩
  -- only a request that reserved for itself releases
  unfold HttpNode.signFail
  split
  · exact hLeft.moveLedger rfl rfl hBacking.releaseSpend
  · exact hLeft

/-- A commit. -/
theorem Sound.commitIntent (h : Sound s) (id : String) :
    Sound (HttpNode.commitIntent cfg env id s).2 :=
  h.moveLedger rfl rfl (h.backing.commitConsume cfg.quorumT env.disk env.durable id)

/-- The second half of a signing request. -/
theorem Sound.signFinish (h : Sound s) {n : Nat} {p : PendingSign} (hp : s.pending[n]? = some p) :
    Sound (HttpNode.signFinish cfg env p { s with pending := s.pending.eraseIdx n }).2 := by
  unfold HttpNode.signFinish
  split
  · rename_i refusal _
    exact h.signFail hp refusal
  · rename_i change hCheck
    have hSigned := h.sign hp (payout_le_of_signCheck hCheck)
    dsimp only
    split
    · exact hSigned.commitIntent p.use.terms.id
    · exact hSigned

/-! ## Steps and runs -/

/-- A safe call keeps the invariant. -/
theorem Sound.step (h : Sound s) {c : HttpCall} (hSafe : SafeCall cfg s c) :
    Sound (HttpNode.step cfg s c) := by
  obtain ⟨env, op⟩ := c
  cases op with
  | reserve body =>
    show Sound (s.intentReserve cfg env body).2
    unfold HttpNode.intentReserve
    split
    · exact h
    · rename_i intent hParse
      exact h.moveLedger rfl rfl (h.reserveIntent (hSafe intent hParse)).1
  | commit intentId =>
    show Sound (s.intentCommit cfg env intentId).2
    unfold HttpNode.intentCommit
    split
    · exact h
    · exact h.commitIntent _
  | release intentId bucket amountSats =>
    -- the amount and the bucket are the caller's: here the condition is needed
    show Sound (s.intentRelease intentId bucket amountSats).2
    unfold HttpNode.intentRelease
    split
    · exact h
    · rename_i kind hBucket
      obtain ⟨hVoid, hUnused⟩ := hSafe kind hBucket
      exact h.moveLedger rfl rfl (h.backing.releaseReservation hVoid hUnused)
  | prepare intentId durable =>
    show Sound (s.intentConsumePrepare env intentId durable).2
    unfold HttpNode.intentConsumePrepare
    split
    · exact h
    · rename_i hLimiter
      cases durable with
      | true => exact h.moveLedger rfl rfl (h.backing.prepareConsume env.disk intentId)
      | false => exact h.moveLedger rfl rfl (h.backing.prepareSoft (hSafe rfl hLimiter) intentId)
  | sweep => exact h.moveLedger rfl rfl (h.backing.sweepExpired hSafe)
  | signBegin req => exact h.signBegin hSafe
  | signFinish n =>
    unfold HttpNode.step
    dsimp only
    cases hp : s.pending[n]? with
    | none => exact h
    | some p => exact h.signFinish hp

/-- Admitting destinations reserves nothing. -/
theorem openBuckets_reserved (log : LineLog.Log) : (openBuckets cfg log).inner.reserved = ∅ := by
  have hAdmit : ∀ (l : PersistedBucketLedger) (kind : BucketKind) (dests : List String),
      (l.admitDestinations kind dests).2.inner.reserved = l.inner.reserved := by
    intro l kind dests
    unfold PersistedBucketLedger.admitDestinations
    split <;> rfl
  simp only [openBuckets, apply_ite PersistedBucketLedger.inner, apply_ite BucketState.reserved,
    hAdmit, ite_self]
  rfl

theorem sound_start (log : LineLog.Log) : Sound (start cfg log) where
  backing := Backing.fresh (openBuckets_reserved log)
  relied u hu := by cases hu
  bound e he := by cases he

/-- A testnet address and its script. -/
def payee : String := "tb1qw508d6qejxtdg4y5r3zarvary0c5xw7kxpjzsx"

def payeeScript : Script :=
  [0x00, 0x14, 0x75, 0x1e, 0x76, 0xe8, 0x19, 0x91, 0x96, 0xd4, 0x54, 0x94, 0x1c, 0x45, 0xd1,
    0xb3, 0xa3, 0x23, 0xf1, 0x43, 0x3b, 0xd6]

/-- A node on its own that may pay `payee` from USERS. -/
def soloConfig : HttpConfig where
  maxTx := 5000
  maxDay := 5000
  usersDestinationAllowlist := [payee]
  minersDestinationAllowlist := []
  quorumT := 1
  signingT := 1
  isAddress d := d == payee
  validateDestination _ := .ok ()
  destinationScript d :=
    if d = payee then .ok payeeScript
    else .error (.invalidIntent "PSBT Intent bind requires a Bitcoin address destination")

/-- Nothing fails, every guard passes, the signer signs. -/
def calmEnv : HttpEnv where
  now := 0
  disk := .ok
  soft := .ok []
  durable := .ok []
  constitution := .ok ⟨"constitution-1", ⟨4000, 3000, 3000⟩⟩
  economy := .ok ⟨⟨0, 0, 0⟩, []⟩
  hybridSignature := .ok none
  authorizeTreasurySign := .ok ()
  prepareLimiter := .ok ()
  taprootKey _ := some [0x51, 0x20]
  onlineCount := 1
  signer := .ok ()

/-- Sign-only: 1000 sats from USERS to `payee` under `intent-1`. -/
def payoutRequest : BitcoinPsbtBody where
  sessionId := "session-1"
  psbt := [(payeeScript, 1000), ([0x51, 0x20], 3000)]
  intentId := some "intent-1"
  bucket := some "USERS"
  destination := some payee
  amountSats := some ⟨1000, by decide⟩
  commitIntent := false

end HttpNode

end KeroseneVault
