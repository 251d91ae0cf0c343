import KeroseneVault.Economy.Payouts
import KeroseneVault.Economy.Persisted

/-!
# The cadence of payouts

`ProposeMinerPayouts::execute` reads the clock, checks the cadence against a copy of
the economy, and records its payout some port calls later. Other executions and other
calls have their turns between, and the process can stop and open `economy.json` anew.
The epoch of the ledger is not among what it passes to the check.

* `PayoutThread`, `PayoutThread.turn` — an execution in its port calls;
* `CadenceState.step` — a turn, a restart, or a new epoch of the ledger;
* `Cadenced` — payouts that succeeded are as far apart as the cadence asks, and no
  payout that was due is refused for it;
* `InCadence` — a payout is recorded over the one that it was checked against, no
  restart forgets one that succeeded, and none that is due comes to the check of an
  epoch.

Main results:

* `Effect.of_turn` — what a turn does to what the cadence is about;
* `cadenced_of_inCadence` — runs in cadence are cadenced.
-/

namespace KeroseneVault

/-! ## Executions -/

/-- What an execution has of its caller, the ledger and the clock. -/
structure PayoutAttempt where
  amount : U64
  intentPrefix : String
  constitution : Constitution
  now : U64

/-- Where an execution stands, or another call of the economy. `seen` is the last
payout in the copy that the cadence was checked against. -/
inductive PayoutThread where
  | other (call : PersistCall)
  | started (amount : U64) (intentPrefix : String)
  | timed (a : PayoutAttempt)
  | checked (a : PayoutAttempt) (seen : Option U64)
  | sharing (a : PayoutAttempt) (seen : Option U64) (made : List SettlementIntent)
      (shares : List MinerPayoutShare)
  | debiting (a : PayoutAttempt) (seen : Option U64) (made : List SettlementIntent)
      (call : PersistCall)
  | recording (a : PayoutAttempt) (seen : Option U64) (made : List SettlementIntent)
      (call : PersistCall)
  | returned (answer : Except DomainError (List SettlementIntent))

/-- The call records a payout, as nothing but an execution does. -/
def EconomyCall.recordsPayout : EconomyCall → Bool
  | .recordMinerPayout .. => true
  | _ => false

/-- `next` carries the constitution, the clock and the answer of a write, for the turn
that asks for one of them. -/
inductive PayoutInput where
  | execute (amount : U64) (intentPrefix : String)
  | call (call : {call : EconomyCall // call.recordsPayout = false})
  | next (constitution : Except DomainError Constitution) (now : U64) (write : DiskWrite)

/-- A payout that succeeded, with its recorded time and the epoch of the ledger, or one
that was refused for cadence, which may have been due. -/
inductive PayoutEvent where
  | paid (atSecs : U64) (epoch : Nat)
  | refused (due : Bool)
  deriving DecidableEq

/-- The economy in memory and in its file, the epoch of the ledger, and the payouts so far. -/
structure PayoutStore where
  books : PersistedEconomy
  epoch : Nat
  events : List PayoutEvent
  up : Bool

namespace PayoutStore

variable (s : PayoutStore)

/-- The last payout in memory. -/
def last : Option U64 := s.books.economy.lastMinerPayoutAtSecs

/-- The ledger is in a later epoch than the last payout. -/
def due : Bool :=
  match s.books.economy.lastMinerPayoutEpoch with
  | none => true
  | some last => last.1 < s.epoch

def log (event : PayoutEvent) : PayoutStore := { s with events := s.events ++ [event] }

@[simp] theorem log_last (event : PayoutEvent) : (s.log event).last = s.last := rfl

@[simp] theorem log_events (event : PayoutEvent) : (s.log event).events = s.events ++ [event] := rfl

/-- A turn of a call of the economy. -/
def callTurn (input : PersistInput) (call : PersistCall) : PersistCall × PayoutStore :=
  let r := PersistCall.turn input call s.books
  (r.1, { s with books := r.2 })

/-- The payouts that succeeded, by their recorded times. -/
def paidTimes : List U64 := s.events.filterMap fun
  | .paid atSecs _ => some atSecs
  | .refused _ => none

/-- The payouts that succeeded, by the epochs of the ledger. -/
def paidEpochs : List Nat := s.events.filterMap fun
  | .paid _ epoch => some epoch
  | .refused _ => none

end PayoutStore

namespace PayoutThread

/-- The intent of the next share, of which there are `made` before. -/
def shareTurn (a : PayoutAttempt) (seen : Option U64) (made : List SettlementIntent)
    (share : MinerPayoutShare) (rest : List MinerPayoutShare) (s : PayoutStore) : PayoutThread :=
  let id := ProposeMinerPayouts.intentId a.intentPrefix made.length share.nodeId
  match share.toIntent id a.constitution.hash with
  | .error e => .returned (.error e)
  | .ok intent =>
    match assertBankIssuedMinerPayout s.books.economy.gateState intent with
    | .error e => .returned (.error e)
    | .ok () => .sharing a seen (made ++ [intent]) rest

/-- One port call, of a node that is up. -/
def turn (cadence : MinerPayoutCadence) :
    PayoutInput → PayoutThread → PayoutStore → PayoutThread × PayoutStore
  | .execute amount intentPrefix, .other .idle, s => (.started amount intentPrefix, s)
  | .execute amount intentPrefix, .other (.returned ..), s => (.started amount intentPrefix, s)
  | .execute amount intentPrefix, .returned _, s => (.started amount intentPrefix, s)
  | .execute .., thread, s => (thread, s)
  | .call call, .returned _, s => (.other (.called call.1), s)
  | .call call, .other c, s => let r := s.callTurn (.start call.1) c; (.other r.1, r.2)
  | .call _, thread, s => (thread, s)
  | .next _ _ write, .other c, s => let r := s.callTurn (.next write) c; (.other r.1, r.2)
  | .next (.error e) _ _, .started .., s => (.returned (.error e), s)
  | .next (.ok constitution) now _, .started amount intentPrefix, s =>
    (.timed ⟨amount, intentPrefix, constitution, now⟩, s)
  | .next .., .timed a, s =>
    -- the epoch is not passed
    match s.books.economy.assertPayoutCadenceOk cadence a.now none with
    | .error e => (.returned (.error e), s.log (.refused s.due))
    | .ok () => (.checked a s.last, s)
  | .next .., .checked a seen, s =>
    match s.books.economy.proposeEqualPayouts a.amount with
    | .error e => (.returned (.error e), s)
    | .ok shares => (.sharing a seen [] shares, s)
  -- every intent is made before the pool is debited
  | .next .., .sharing a seen made [], s =>
    (.debiting a seen made (.called (.debitPool a.amount)), s)
  | .next .., .sharing a seen made (share :: rest), s => (shareTurn a seen made share rest s, s)
  | .next .., .debiting _ _ _ (.returned (.error e) _), s => (.returned (.error e), s)
  | .next .., .debiting a seen made (.returned (.ok ()) _), s =>
    (.recording a seen made (.called (.recordMinerPayout a.now none)), s)
  | .next _ _ write, .debiting a seen made c, s =>
    let r := s.callTurn (.next write) c
    (.debiting a seen made r.1, r.2)
  -- the pool stays debited where the payout is not recorded
  | .next .., .recording _ _ _ (.returned (.error e) _), s => (.returned (.error e), s)
  | .next .., .recording a _ made (.returned (.ok ()) _), s =>
    (.returned (.ok made), s.log (.paid a.now s.epoch))
  | .next _ _ write, .recording a seen made c, s =>
    let r := s.callTurn (.next write) c
    (.recording a seen made r.1, r.2)
  | .next .., .returned answer, s => (.returned answer, s)

/-- A node that is down does nothing. -/
def nodeTurn (cadence : MinerPayoutCadence) (input : PayoutInput) (thread : PayoutThread)
    (s : PayoutStore) : PayoutThread × PayoutStore :=
  if s.up then turn cadence input thread s else (thread, s)

/-- The clock and the last payout of a cadence check that passed, until the payout is recorded. -/
def passed : PayoutThread → Option (U64 × Option U64)
  | .checked a seen | .sharing a seen _ _ | .debiting a seen _ _ => some (a.now, seen)
  | .recording a seen _ (.called _) => some (a.now, seen)
  | _ => none

/-- A payout that is recorded in memory, and not yet returned. -/
def pending : PayoutThread → Option U64
  | .recording _ _ _ (.called _) => none
  | .recording a _ _ _ => some a.now
  | _ => none

/-- The call of the economy that a thread is in is its own. -/
def Sane : PayoutThread → Prop
  | .other (.called call) => call.recordsPayout = false
  | .debiting a _ _ (.called call) => call = .debitPool a.amount
  | .recording a _ _ (.called call) => call = .recordMinerPayout a.now none
  | _ => True

/-- What a turn does to what the cadence is about. -/
inductive Effect (cadence : MinerPayoutCadence) (t : PayoutThread) (s : PayoutStore) :
    PayoutThread × PayoutStore → Prop
  | kept {t' : PayoutThread} {s' : PayoutStore} (hLast : s'.last = s.last)
      (hEvents : s'.events = s.events) (hPassed : t'.passed = none ∨ t'.passed = t.passed)
      (hPending : t'.pending = none ∨ t'.pending = t.pending) (hSane : t'.Sane) :
      Effect cadence t s (t', s')
  | checked {a : PayoutAttempt} (hThread : t = .timed a)
      (hOk : s.books.economy.assertPayoutCadenceOk cadence a.now none = .ok ()) :
      Effect cadence t s (.checked a s.last, s)
  | refused {a : PayoutAttempt} {e : DomainError} (hThread : t = .timed a)
      (hRefused : s.books.economy.assertPayoutCadenceOk cadence a.now none = .error e) :
      Effect cadence t s (.returned (.error e), s.log (.refused s.due))
  | recorded {a : PayoutAttempt} {seen : Option U64} {made : List SettlementIntent}
      {changed : Bool} {s' : PayoutStore}
      (hThread : t = .recording a seen made (.called (.recordMinerPayout a.now none)))
      (hLast : s'.last = some a.now) (hEvents : s'.events = s.events) :
      Effect cadence t s (.recording a seen made (.copying changed), s')
  | paid {a : PayoutAttempt} {seen : Option U64} {made : List SettlementIntent} {changed : Bool}
      (hThread : t = .recording a seen made (.returned (.ok ()) changed)) :
      Effect cadence t s (.returned (.ok made), s.log (.paid a.now s.epoch))

end PayoutThread

/-! ### Calls of the economy -/

theorem MinerEconomy.lastMinerPayout_accrueProfitSplits {economy : MinerEconomy}
    (profitSats : U64) (splits : ProfitSplits) :
    (economy.accrueProfitSplits profitSats splits).2.lastMinerPayoutAtSecs =
      economy.lastMinerPayoutAtSecs := by
  unfold accrueProfitSplits
  split
  · rfl
  · rfl

theorem MinerEconomy.lastMinerPayout_foldl_credit {economy : MinerEconomy}
    (shares : List (NodeId × ℕ)) :
    (shares.foldl credit economy).lastMinerPayoutAtSecs = economy.lastMinerPayoutAtSecs := by
  induction shares generalizing economy with
  | nil => rfl
  | cons share rest ih => exact ih

/-- No other call changes the last payout. -/
theorem EconomyCall.lastMinerPayout_run {economy : MinerEconomy} {call : EconomyCall}
    (h : call.recordsPayout = false) :
    (call.run economy).2.lastMinerPayoutAtSecs = economy.lastMinerPayoutAtSecs := by
  -- of all calls one records a payout, and it is excluded
  cases call with
  | upsertOperator op =>
    show (economy.upsertOperator op).2.lastMinerPayoutAtSecs = _
    unfold MinerEconomy.upsertOperator
    split
    · rfl
    · rfl
  | accrueFromProfit profitSats pRewardBps =>
    show (economy.accrueFromProfit profitSats pRewardBps).2.lastMinerPayoutAtSecs = _
    unfold MinerEconomy.accrueFromProfit
    split
    · rfl
    · -- the rate is a split of its own, and the call goes on as with splits
      rename_i splits _
      have hSame := @MinerEconomy.lastMinerPayout_accrueProfitSplits economy profitSats splits
      split
      · rename_i hEq
        rwa [hEq] at hSame
      · rename_i hEq
        rwa [hEq] at hSame
  | accrueProfitSplits profitSats splits =>
    exact MinerEconomy.lastMinerPayout_accrueProfitSplits profitSats splits
  | accrueGovernanceJob job participants config =>
    show (economy.accrueGovernanceJob job participants config).2.lastMinerPayoutAtSecs = _
    unfold MinerEconomy.accrueGovernanceJob
    dsimp only
    split
    · rfl
    · exact MinerEconomy.lastMinerPayout_foldl_credit _
  | debitPool amount =>
    show (economy.debitPool amount).2.lastMinerPayoutAtSecs = _
    unfold MinerEconomy.debitPool
    split
    · rfl
    · rfl
  | recordMinerPayout atSecs epoch => cases h

/-- A turn of a call leaves the last payout, unless the call records one. -/
theorem PayoutStore.callTurn_last (s : PayoutStore) (input : PersistInput) {call : PersistCall}
    (h : ∀ c, call = .called c → c.recordsPayout = false) :
    (s.callTurn input call).2.last = s.last := by
  cases input with
  | start c => cases call <;> rfl
  | next write =>
    cases call with
    | called c =>
      have hRun := @EconomyCall.lastMinerPayout_run s.books.economy c (h c rfl)
      unfold callTurn PersistCall.turn last
      dsimp only
      rcases hEq : c.run s.books.economy with ⟨_ | _, economy⟩
      · rw [hEq] at hRun
        exact hRun
      · rw [hEq] at hRun
        exact hRun
    | idle | copying | writing | returned => rfl

namespace PayoutThread

variable {cadence : MinerPayoutCadence} {input : PayoutInput} {thread : PayoutThread}
  {s : PayoutStore}

/-- A turn that leaves store and thread. -/
theorem Effect.same (hSane : thread.Sane) : Effect cadence thread s (thread, s) :=
  .kept rfl rfl (.inr rfl) (.inr rfl) hSane

/-- A turn after which nothing is under way that the cadence is about. -/
theorem Effect.away {t' : PayoutThread} (hPassed : t'.passed = none) (hPending : t'.pending = none)
    (hSane : t'.Sane) : Effect cadence thread s (t', s) :=
  .kept rfl rfl (.inl hPassed) (.inl hPending) hSane

/-- A call that has had a turn is called no more. -/
theorem callTurn_ne_called (s : PayoutStore) (write : DiskWrite) (c : PersistCall)
    (call : EconomyCall) : (s.callTurn (.next write) c).1 ≠ .called call := by
  cases c with
  | called other =>
    unfold PayoutStore.callTurn PersistCall.turn
    dsimp only
    rcases other.run s.books.economy with ⟨_ | _, economy⟩
    · nofun
    · nofun
  | idle | copying | writing | returned => nofun

/-- Nothing is asked of the call of a thread once it has had a turn. -/
theorem sane_callTurn (s : PayoutStore) (write : DiskWrite) (c : PersistCall) :
    Sane (.other (s.callTurn (.next write) c).1) ∧
      ∀ a seen made, Sane (.debiting a seen made (s.callTurn (.next write) c).1) := by
  have hNot := callTurn_ne_called s write c
  cases hCall : (s.callTurn (.next write) c).1 with
  | called call => exact absurd hCall (hNot call)
  | idle | copying | writing | returned => exact ⟨trivial, fun _ _ _ => trivial⟩

theorem Effect.of_execute (hSane : thread.Sane) (amount : U64) (intentPrefix : String) :
    Effect cadence thread s (turn cadence (.execute amount intentPrefix) thread s) := by
  cases thread with
  | other call =>
    cases call with
    | idle => exact .away rfl rfl trivial
    | returned answer changed => exact .away rfl rfl trivial
    | called | copying | writing => exact .same hSane
  | returned answer => exact .away rfl rfl trivial
  | started | timed | checked | sharing | debiting | recording => exact .same hSane

theorem Effect.of_call (hSane : thread.Sane)
    (call : {call : EconomyCall // call.recordsPayout = false}) :
    Effect cadence thread s (turn cadence (.call call) thread s) := by
  cases thread with
  | other c =>
    refine .kept (s.callTurn_last _ ?_) rfl (.inl rfl) (.inl rfl) ?_
    · rintro c' rfl
      exact hSane
    · cases c with
      | idle | returned => exact call.2
      | called | copying | writing => exact hSane
  | returned answer => exact .away rfl rfl call.2
  | started | timed | checked | sharing | debiting | recording => exact .same hSane

/-- The check of the cadence. -/
theorem Effect.of_timed {constitution : Except DomainError Constitution} {now : U64}
    {write : DiskWrite} (a : PayoutAttempt) :
    Effect cadence (.timed a) s (turn cadence (.next constitution now write) (.timed a) s) := by
  show Effect cadence _ s (match s.books.economy.assertPayoutCadenceOk cadence a.now none with
    | .error e => (.returned (.error e), s.log (.refused s.due))
    | .ok () => (.checked a s.last, s))
  cases hCheck : s.books.economy.assertPayoutCadenceOk cadence a.now none with
  | error e => exact .refused rfl hCheck
  | ok u => exact .checked rfl hCheck

/-- The shares of an attempt that passed, and an intent of each. -/
theorem Effect.of_sharing {constitution : Except DomainError Constitution} {now : U64}
    {write : DiskWrite} (a : PayoutAttempt) (seen : Option U64) (made : List SettlementIntent)
    (shares : List MinerPayoutShare) :
    Effect cadence (.sharing a seen made shares) s
      (turn cadence (.next constitution now write) (.sharing a seen made shares) s) := by
  cases shares with
  | nil => exact .kept rfl rfl (.inr rfl) (.inl rfl) rfl
  | cons share rest =>
    show Effect cadence _ s (shareTurn a seen made share rest s, s)
    unfold shareTurn
    dsimp only
    split
    · exact .away rfl rfl trivial
    split
    · exact .away rfl rfl trivial
    · exact .kept rfl rfl (.inr rfl) (.inl rfl) trivial

/-- The call that debits the pool, and what comes after it. -/
theorem Effect.of_debiting {constitution : Except DomainError Constitution} {now : U64}
    {write : DiskWrite} {a : PayoutAttempt} {seen : Option U64} {made : List SettlementIntent}
    {c : PersistCall} (hSane : Sane (.debiting a seen made c)) :
    Effect cadence (.debiting a seen made c) s
      (turn cadence (.next constitution now write) (.debiting a seen made c) s) := by
  have hOther {c : PersistCall}
      (hCalled : ∀ call, c = .called call → call.recordsPayout = false) :
      Effect cadence (.debiting a seen made c) s
        (.debiting a seen made (s.callTurn (.next write) c).1,
          (s.callTurn (.next write) c).2) :=
    .kept (s.callTurn_last _ hCalled) rfl (.inr rfl) (.inl rfl)
      ((sane_callTurn s write c).2 a seen made)
  -- the debit is done, or is one of its turns away from it
  cases c with
  | returned answer changed =>
    cases answer with
    | error e => exact .away rfl rfl trivial
    | ok u => exact .kept rfl rfl (.inr rfl) (.inl rfl) rfl
  | called call =>
    obtain rfl : call = .debitPool a.amount := hSane
    refine hOther fun other hEq => ?_
    obtain rfl := PersistCall.called.inj hEq
    rfl
  | idle | copying | writing =>
    refine hOther fun call hEq => ?_
    cases hEq

/-- The call that records the payout, and what comes after it. -/
theorem Effect.of_recording {constitution : Except DomainError Constitution} {now : U64}
    {write : DiskWrite} {a : PayoutAttempt} {seen : Option U64} {made : List SettlementIntent}
    {c : PersistCall} (hSane : Sane (.recording a seen made c)) :
    Effect cadence (.recording a seen made c) s
      (turn cadence (.next constitution now write) (.recording a seen made c) s) := by
  cases c with
  | returned answer changed =>
    cases answer with
    | error e => exact .away rfl rfl trivial
    | ok u => exact .paid rfl
  | called call =>
    obtain rfl : call = .recordMinerPayout a.now none := hSane
    exact .recorded rfl rfl rfl
  | idle | copying | writing => exact .kept rfl rfl (.inr rfl) (.inr rfl) trivial

/-- What a turn does to what the cadence is about. -/
theorem Effect.of_turn (hSane : thread.Sane) :
    Effect cadence thread s (turn cadence input thread s) := by
  -- by what the turn is of, and then by how far the execution has come
  cases input with
  | execute amount intentPrefix => exact .of_execute hSane amount intentPrefix
  | call call => exact .of_call hSane call
  | next constitution now write =>
    cases thread with
    | other c =>
      refine .kept (s.callTurn_last _ ?_) rfl (.inl rfl) (.inl rfl) (sane_callTurn s write c).1
      rintro c' rfl
      exact hSane
    | started amount intentPrefix =>
      cases constitution with
      | error e => exact .away rfl rfl trivial
      | ok constitution => exact .away rfl rfl trivial
    | timed a => exact .of_timed a
    | checked a seen =>
      show Effect cadence _ s (match s.books.economy.proposeEqualPayouts a.amount with
        | .error e => (.returned (.error e), s)
        | .ok shares => (.sharing a seen [] shares, s))
      cases s.books.economy.proposeEqualPayouts a.amount with
      | error e => exact .away rfl rfl trivial
      | ok shares => exact .kept rfl rfl (.inr rfl) (.inl rfl) trivial
    | sharing a seen made shares => exact .of_sharing a seen made shares
    | debiting a seen made c => exact .of_debiting hSane
    | recording a seen made c => exact .of_recording hSane
    | returned answer => exact .same hSane

end PayoutThread

/-! ## Runs -/

/-- `PersistedEconomy::open` of the file, which is written anew. A node whose file is not
loaded or not written stays down. -/
def PayoutStore.reopened (serde : SerdeJson) (write : DiskWrite) (s : PayoutStore) : PayoutStore :=
  match loadEconomy serde s.books.file with
  | .error _ => { s with up := false }
  | .ok economy =>
    { s with
      books := ⟨economy, if write.lands then serializeEconomy economy else s.books.file⟩
      up := returnedOk write.answer }

abbrev CadenceState := Threads.State PayoutStore PayoutThread

inductive CadenceAction where
  | turn (n : ℕ) (input : PayoutInput)
  | restart (write : DiskWrite)
  | epochAdvanced

namespace CadenceState

variable (cadence : MinerPayoutCadence) (serde : SerdeJson)

/-- A node that has opened its economy. -/
def start (e : OpenedEconomy) (epoch : ℕ) : CadenceState :=
  { store := { books := ⟨e.economy, serializeEconomy e.economy⟩, epoch, events := [], up := true }
    threads := fun _ => .other .idle }

def step (s : CadenceState) : CadenceAction → CadenceState
  | .turn n input => Threads.step (PayoutThread.nodeTurn cadence) s (n, input)
  | .restart write => { store := s.store.reopened serde write, threads := fun _ => .other .idle }
  | .epochAdvanced => { s with store := { s.store with epoch := s.store.epoch + 1 } }

end CadenceState

/-- What a cadence asks for between two payouts, in seconds. -/
def MinerPayoutCadence.gapSecs : MinerPayoutCadence → Option ℕ
  | .manual | .epoch => none
  | .daily => some 86400
  | .weekly => some 604800

/-- Two times are a gap apart, whichever is the later. -/
def Apart (gap : ℕ) (t t' : U64) : Prop := t.1 + gap ≤ t'.1 ∨ t'.1 + gap ≤ t.1

/-- Payouts that succeeded are as far apart as the cadence asks. By epochs, no two are of
one epoch, and none that was due has been refused. -/
structure Cadenced (cadence : MinerPayoutCadence) (s : PayoutStore) : Prop where
  spaced : ∀ gap, cadence.gapSecs = some gap → s.paidTimes.Pairwise (Apart gap)
  once : cadence = .epoch → s.paidEpochs.Nodup
  unrefused : cadence = .epoch → .refused true ∉ s.events

/-- A payout is recorded over the last one that its cadence check saw, a restart loads no
last payout before one that succeeded, and no payout that is due comes to the check of
an epoch. -/
def InCadence (cadence : MinerPayoutCadence) (serde : SerdeJson) (s : CadenceState) :
    CadenceAction → Prop
  | .turn n (.next ..) =>
    match s.threads n with
    | .timed _ => cadence = .epoch → s.store.due = false
    | .recording _ seen _ (.called _) => cadence.gapSecs ≠ none → s.store.last = seen
    | _ => True
  | .restart _ => cadence.gapSecs ≠ none → ∀ economy,
    loadEconomy serde s.store.books.file = .ok economy → ∀ t ∈ s.store.paidTimes,
      ∃ last, economy.lastMinerPayoutAtSecs = some last ∧ t.1 ≤ last.1
  | _ => True

/-! ### What a turn keeps -/

theorem PayoutThread.Effect.of_nodeTurn {cadence : MinerPayoutCadence} {input : PayoutInput}
    {thread : PayoutThread} {s : PayoutStore} (hSane : thread.Sane) :
    Effect cadence thread s (nodeTurn cadence input thread s) := by
  unfold nodeTurn
  split
  · exact .of_turn hSane
  · exact .same hSane

theorem PayoutThread.Effect.sane {cadence : MinerPayoutCadence} {thread : PayoutThread}
    {s : PayoutStore} {r : PayoutThread × PayoutStore} (h : Effect cadence thread s r) :
    r.1.Sane := by
  cases h with
  | kept _ _ _ _ hSane => exact hSane
  | checked | refused | recorded | paid => trivial

/-- By seconds, a check passes where the last payout is a gap before the clock. -/
theorem MinerEconomy.gap_of_assertPayoutCadenceOk {economy : MinerEconomy}
    {cadence : MinerPayoutCadence} {gap : ℕ} {now last : U64} (hGap : cadence.gapSecs = some gap)
    (hLast : economy.lastMinerPayoutAtSecs = some last)
    (h : economy.assertPayoutCadenceOk cadence now none = .ok ()) : last.1 + gap ≤ now.1 := by
  cases cadence with
  | manual => cases hGap
  | epoch => cases hGap
  | daily =>
    obtain rfl := Option.some.inj hGap
    simp only [assertPayoutCadenceOk, hLast] at h
    split at h
    · cases h
    · omega
  | weekly =>
    obtain rfl := Option.some.inj hGap
    simp only [assertPayoutCadenceOk, hLast] at h
    split at h
    · cases h
    · omega

/-- A payout that succeeded, or is still to be returned. -/
def CadenceState.Counted (s : CadenceState) (t : U64) : Prop :=
  t ∈ s.store.paidTimes ∨ ∃ n, (s.threads n).pending = some t

/-- Payouts in memory are a gap apart, and none is after the last one. -/
structure Spaced (gap : ℕ) (s : CadenceState) : Prop where
  sane : ∀ n, (s.threads n).Sane
  checked : ∀ n now last, (s.threads n).passed = some (now, some last) → last.1 + gap ≤ now.1
  below : ∀ t, s.Counted t → ∃ last, s.store.last = some last ∧ t.1 ≤ last.1
  paid : s.store.paidTimes.Pairwise (Apart gap)
  pending : ∀ n t, (s.threads n).pending = some t → ∀ t' ∈ s.store.paidTimes, Apart gap t' t
  apart : ∀ n m t t', n ≠ m → (s.threads n).pending = some t → (s.threads m).pending = some t' →
    Apart gap t t'

namespace Spaced

variable {gap : ℕ} {s s' : CadenceState} {cadence : MinerPayoutCadence} {serde : SerdeJson}

theorem start (e : OpenedEconomy) (epoch : ℕ) : Spaced gap (.start e epoch) where
  sane := fun _ => trivial
  checked := nofun
  below := by
    rintro t (ht | ⟨n, ht⟩)
    · cases ht
    · cases ht
  paid := .nil
  pending := nofun
  apart := nofun

/-- Where no payout comes in, and no check. -/
theorem mono (h : Spaced gap s) (hSane : ∀ n, (s'.threads n).Sane)
    (hPassed : ∀ n now last, (s'.threads n).passed = some (now, some last) → last.1 + gap ≤ now.1)
    (hPending : ∀ n t, (s'.threads n).pending = some t → (s.threads n).pending = some t)
    (hLast : s'.store.last = s.store.last) (hPaid : s'.store.paidTimes = s.store.paidTimes) :
    Spaced gap s' where
  sane := hSane
  checked := hPassed
  below := by
    rintro t (ht | ⟨n, ht⟩)
    · rw [hLast]
      exact h.below t (.inl (hPaid ▸ ht))
    · rw [hLast]
      exact h.below t (.inr ⟨n, hPending n t ht⟩)
  paid := hPaid ▸ h.paid
  pending := fun n t ht => hPaid ▸ h.pending n t (hPending n t ht)
  apart := fun n m t t' hNe ht ht' => h.apart n m t t' hNe (hPending n t ht) (hPending m t' ht')

/-- A payout at a gap after all others is recorded. -/
theorem recorded (h : Spaced gap s) {n : ℕ} {now : U64} (hSane : ∀ m, (s'.threads m).Sane)
    (hPassed : ∀ m now last, (s'.threads m).passed = some (now, some last) →
      last.1 + gap ≤ now.1)
    (hBefore : ∀ t, s.Counted t → t.1 + gap ≤ now.1) (hNow : s'.store.last = some now)
    (hPaid : s'.store.paidTimes = s.store.paidTimes)
    (hCases : ∀ m t, (s'.threads m).pending = some t →
      m = n ∧ t = now ∨ (s.threads m).pending = some t) : Spaced gap s' where
  sane := hSane
  checked := hPassed
  below := by
    intro t hCounted
    refine ⟨now, hNow, ?_⟩
    rcases hCounted with ht | ⟨m, ht⟩
    · have hGone := hBefore t (.inl (hPaid ▸ ht))
      omega
    · rcases hCases m t ht with ⟨-, rfl⟩ | hOld
      · exact le_rfl
      · have hGone := hBefore t (.inr ⟨m, hOld⟩)
        omega
  paid := hPaid ▸ h.paid
  pending := by
    intro m t ht t' ht'
    rw [hPaid] at ht'
    rcases hCases m t ht with ⟨-, rfl⟩ | hOld
    · exact .inl (hBefore t' (.inl ht'))
    · exact h.pending m t hOld t' ht'
  apart := by
    -- the one that is recorded is after the others, whichever of the two it is
    intro m m' t t' hNe ht ht'
    rcases hCases m t ht with ⟨rfl, rfl⟩ | hOld
    · rcases hCases m' t' ht' with ⟨rfl, -⟩ | hOld'
      · exact absurd rfl hNe
      · exact .inr (hBefore t' (.inr ⟨m', hOld'⟩))
    · rcases hCases m' t' ht' with ⟨-, rfl⟩ | hOld'
      · exact .inl (hBefore t (.inr ⟨m, hOld⟩))
      · exact h.apart m m' t t' hNe hOld hOld'

/-- A payout that was to be returned is returned. -/
theorem returned (h : Spaced gap s) {n : ℕ} {now : U64} (hSane : ∀ m, (s'.threads m).Sane)
    (hPassed : ∀ m now last, (s'.threads m).passed = some (now, some last) →
      last.1 + gap ≤ now.1)
    (hWas : (s.threads n).pending = some now) (hLast : s'.store.last = s.store.last)
    (hPaid : s'.store.paidTimes = s.store.paidTimes ++ [now])
    (hRest : ∀ m t, (s'.threads m).pending = some t →
      m ≠ n ∧ (s.threads m).pending = some t) : Spaced gap s' where
  sane := hSane
  checked := hPassed
  -- the payout that returns is the one recorded last, so that no other is later
  below := by
    rintro t (ht | ⟨m, ht⟩)
    · rw [hPaid, List.mem_append, List.mem_singleton] at ht
      rw [hLast]
      rcases ht with hOld | rfl
      · exact h.below t (.inl hOld)
      · exact h.below t (.inr ⟨n, hWas⟩)
    · rw [hLast]
      exact h.below t (.inr ⟨m, (hRest m t ht).2⟩)
  paid := by
    rw [hPaid, List.pairwise_append]
    refine ⟨h.paid, List.pairwise_singleton _ _, fun t ht t' ht' => ?_⟩
    obtain rfl := List.mem_singleton.mp ht'
    exact h.pending n t' hWas t ht
  pending := by
    intro m t ht t' ht'
    rw [hPaid, List.mem_append, List.mem_singleton] at ht'
    obtain ⟨hm, hOld⟩ := hRest m t ht
    rcases ht' with hOld' | rfl
    · exact h.pending m t hOld t' hOld'
    · exact h.apart n m t' t (Ne.symm hm) hWas hOld
  apart := fun m m' t t' hNe ht ht' => h.apart m m' t t' hNe (hRest m t ht).2 (hRest m' t' ht').2

/-- A turn, of which no payout is recorded over another than its check saw. -/
theorem turn (h : Spaced gap s) (hGap : cadence.gapSecs = some gap) {n : ℕ}
    {r : PayoutThread × PayoutStore} (hEffect : PayoutThread.Effect cadence (s.threads n) s.store r)
    (hSeen : ∀ a seen made call, s.threads n = .recording a seen made (.called call) →
      r.1.pending ≠ none → s.store.last = seen)
    (hStore : s'.store = r.2) (hSelf : s'.threads n = r.1)
    (hOthers : ∀ m, m ≠ n → s'.threads m = s.threads m) : Spaced gap s' := by
  -- what all threads have: the one whose turn it is, and the others
  have hAll {P : ℕ → PayoutThread → Prop} (hFirst : P n r.1)
      (hRest : ∀ m, m ≠ n → P m (s.threads m)) (m : ℕ) : P m (s'.threads m) := by
    by_cases hm : m = n
    · subst hm
      exact hSelf ▸ hFirst
    · exact (hOthers m hm).symm ▸ hRest m hm
  have hSane := @hAll (fun _ t => t.Sane) hEffect.sane fun m _ => h.sane m
  have hPassed (hFirst : ∀ now last, r.1.passed = some (now, some last) → last.1 + gap ≤ now.1) :=
    @hAll (fun _ t => ∀ now last, t.passed = some (now, some last) → last.1 + gap ≤ now.1) hFirst
      fun m _ => h.checked m
  have hPending (hFirst : ∀ t, r.1.pending = some t → (s.threads n).pending = some t) :=
    @hAll (fun m t => ∀ x, t.pending = some x → (s.threads m).pending = some x) hFirst
      fun m _ x hx => hx
  cases hEffect with
  | kept hLast hEvents hThread hSame hSane' =>
    refine h.mono hSane (hPassed fun now last hEq => ?_) (hPending fun t hEq => ?_)
      (hStore ▸ hLast) ?_
    · rcases hThread with hNone | hOld
      · rw [hNone] at hEq
        cases hEq
      · exact h.checked n now last (hOld ▸ hEq)
    · rcases hSame with hNone | hOld
      · rw [hNone] at hEq
        cases hEq
      · exact hOld ▸ hEq
    · rw [hStore]
      exact congrArg (List.filterMap _) hEvents
  | checked hThread hOk =>
    refine h.mono hSane (hPassed fun now last hEq => ?_) (hPending nofun)
      (congrArg PayoutStore.last hStore) (congrArg PayoutStore.paidTimes hStore)
    obtain ⟨rfl, hLast⟩ := Prod.mk.inj (Option.some.inj hEq)
    exact MinerEconomy.gap_of_assertPayoutCadenceOk hGap hLast hOk
  | refused hThread hRefused =>
    refine h.mono hSane (hPassed nofun) (hPending nofun) (by rw [hStore]; rfl) ?_
    rw [hStore]
    simp [PayoutStore.paidTimes]
  | @recorded a seen made changed after hThread hLast hEvents =>
    have hPaid : s'.store.paidTimes = s.store.paidTimes := by
      rw [hStore]
      exact congrArg (List.filterMap _) hEvents
    have hNow : s'.store.last = some a.now := hStore ▸ hLast
    -- all payouts before are a gap before the one that the check saw
    have hBefore (t : U64) (ht : s.Counted t) : t.1 + gap ≤ a.now.1 := by
      obtain ⟨last, hOld, hLe⟩ := h.below t ht
      rw [hSeen a seen made _ hThread nofun] at hOld
      have hPass := h.checked n a.now last (by rw [hThread, hOld]; rfl)
      omega
    refine h.recorded (n := n) hSane (hPassed nofun) hBefore hNow hPaid fun m t ht => ?_
    by_cases hm : m = n
    · subst hm
      rw [hSelf] at ht
      exact .inl ⟨rfl, (Option.some.inj ht).symm⟩
    · exact .inr (hOthers m hm ▸ ht)
  | @paid a seen made changed hThread =>
    have hPaid : s'.store.paidTimes = s.store.paidTimes ++ [a.now] := by
      rw [hStore]
      simp [PayoutStore.paidTimes]
    have hWas : (s.threads n).pending = some a.now := by
      rw [hThread]
      rfl
    have hLast : s'.store.last = s.store.last := by
      rw [hStore]
      rfl
    refine h.returned hSane (hPassed nofun) hWas hLast hPaid fun m t ht => ?_
    -- the others are still to be returned
    have hm : m ≠ n := by
      rintro rfl
      rw [hSelf] at ht
      cases ht
    exact ⟨hm, hOthers m hm ▸ ht⟩

/-- A step in cadence. -/
theorem step (h : Spaced gap s) (hGap : cadence.gapSecs = some gap) (a : CadenceAction)
    (hIn : InCadence cadence serde s a) : Spaced gap (s.step cadence serde a) := by
  have hSome : cadence.gapSecs ≠ none := by
    rw [hGap]
    nofun
  cases a with
  | turn n input =>
    refine h.turn hGap (.of_nodeTurn (h.sane n)) (fun a seen made call hThread hRecords => ?_) rfl
      (Threads.step_threads_self ..) fun m hm => Threads.step_threads_ne _ s n input hm
    cases input with
    | next constitution now write =>
      unfold InCadence at hIn
      simp only [hThread] at hIn
      exact hIn hSome
    | execute | call =>
      -- nothing is recorded, since a thread under way does not start
      rw [hThread] at hRecords
      unfold PayoutThread.nodeTurn at hRecords
      split at hRecords
      · exact absurd rfl hRecords
      · exact absurd rfl hRecords
  | restart write =>
    show Spaced gap ⟨s.store.reopened serde write, fun _ => .other .idle⟩
    cases hLoad : loadEconomy serde s.store.books.file with
    | error e =>
      have hSame : s.store.reopened serde write = { s.store with up := false } := by
        unfold PayoutStore.reopened
        rw [hLoad]
      rw [hSame]
      exact h.mono (fun _ => trivial) nofun nofun rfl rfl
    | ok economy =>
      have hOpened : s.store.reopened serde write = { s.store with
          books := ⟨economy, if write.lands then serializeEconomy economy else s.store.books.file⟩
          up := returnedOk write.answer } := by
        unfold PayoutStore.reopened
        rw [hLoad]
      rw [hOpened]
      refine ⟨fun _ => trivial, nofun, ?_, h.paid, nofun, nofun⟩
      rintro t (ht | ⟨n, ht⟩)
      · exact hIn hSome economy hLoad t ht
      · cases ht
  | epochAdvanced => exact h.mono h.sane h.checked (fun _ _ ht => ht) rfl rfl

end Spaced

/-- By epochs, no execution passes its check, and none that was due has come to it. -/
structure Refusing (s : CadenceState) : Prop where
  sane : ∀ n, (s.threads n).Sane
  passed : ∀ n, (s.threads n).passed = none
  pending : ∀ n, (s.threads n).pending = none
  paid : s.store.paidEpochs = []
  unrefused : .refused true ∉ s.store.events

namespace Refusing

variable {s s' : CadenceState} {serde : SerdeJson}

theorem start (e : OpenedEconomy) (epoch : ℕ) : Refusing (.start e epoch) :=
  ⟨fun _ => trivial, fun _ => rfl, fun _ => rfl, rfl, nofun⟩

/-- A turn, of which no check is of a payout that is due. -/
theorem turn (h : Refusing s) {n : ℕ} {r : PayoutThread × PayoutStore}
    (hEffect : PayoutThread.Effect .epoch (s.threads n) s.store r)
    (hDue : ∀ a, s.threads n = .timed a → r.2.events ≠ s.store.events → s.store.due = false)
    (hStore : s'.store = r.2) (hSelf : s'.threads n = r.1)
    (hOthers : ∀ m, m ≠ n → s'.threads m = s.threads m) : Refusing s' := by
  have hAll {P : PayoutThread → Prop} (hFirst : P r.1) (hRest : ∀ m, P (s.threads m)) (m : ℕ) :
      P (s'.threads m) := by
    by_cases hm : m = n
    · subst hm
      exact hSelf ▸ hFirst
    · exact (hOthers m hm).symm ▸ hRest m
  have hSane := hAll hEffect.sane h.sane
  have hThread := h.passed n
  have hPending := h.pending n
  cases hEffect with
  | kept hLast hEvents hPassed' hPending' hSane' =>
    have hNone := hPassed'.elim id fun hOld => hOld.trans hThread
    have hDone := hPending'.elim id fun hOld => hOld.trans hPending
    have hStay : s'.store.events = s.store.events := hStore ▸ hEvents
    refine ⟨hSane, @hAll (·.passed = none) hNone h.passed,
      @hAll (·.pending = none) hDone h.pending, ?_, hStay ▸ h.unrefused⟩
    exact (congrArg (List.filterMap _) hStay).trans h.paid
  | checked hTimed hOk =>
    -- the check has no epoch, and refuses
    cases hOk
  | refused hTimed hRefused =>
    have hNotDue := hDue _ hTimed (by simp)
    have hStay : s'.store.events = s.store.events ++ [.refused false] := by
      rw [hStore, ← hNotDue]
      rfl
    refine ⟨hSane, @hAll (·.passed = none) rfl h.passed, @hAll (·.pending = none) rfl h.pending,
      ?_, ?_⟩
    · have hNone := h.paid
      unfold PayoutStore.paidEpochs at hNone ⊢
      rw [hStay, List.filterMap_append, hNone]
      rfl
    · rw [hStay, List.mem_append, List.mem_singleton]
      exact not_or.mpr ⟨h.unrefused, nofun⟩
  | recorded hRecording =>
    rw [hRecording] at hThread
    cases hThread
  | paid hRecording =>
    rw [hRecording] at hPending
    cases hPending

/-- A turn that is in cadence lets nothing past it. -/
theorem step (h : Refusing s) (a : CadenceAction) (hIn : InCadence .epoch serde s a) :
    Refusing (s.step .epoch serde a) := by
  cases a with
  | turn n input =>
    refine h.turn (.of_nodeTurn (h.sane n)) (fun a hThread hLogs => ?_) rfl
      (Threads.step_threads_self ..) fun m hm => Threads.step_threads_ne _ s n input hm
    cases input with
    | next constitution now write =>
      unfold InCadence at hIn
      simp only [hThread] at hIn
      exact hIn trivial
    | execute | call =>
      rw [hThread] at hLogs
      unfold PayoutThread.nodeTurn at hLogs
      split at hLogs
      · exact absurd rfl hLogs
      · exact absurd rfl hLogs
  | restart write =>
    have hEvents : (s.store.reopened serde write).events = s.store.events := by
      unfold PayoutStore.reopened
      split
      · rfl
      · rfl
    refine ⟨fun _ => trivial, fun _ => rfl, fun _ => rfl, ?_, ?_⟩
    · exact (congrArg (List.filterMap _) hEvents).trans h.paid
    · exact hEvents ▸ h.unrefused
  | epochAdvanced => exact ⟨h.sane, h.passed, h.pending, h.paid, h.unrefused⟩

end Refusing

/-! ### Runs in cadence -/

/--
**Cadence.** Along every run in cadence, payouts that succeeded are as far apart as
the cadence asks, and no payout that is due is refused for it.
-/
theorem cadenced_of_inCadence (cadence : MinerPayoutCadence) (serde : SerdeJson)
    (e : OpenedEconomy) (epoch : ℕ) (actions : List CadenceAction)
    (h : Runs.EveryStep (CadenceState.step cadence serde) (InCadence cadence serde)
      (.start e epoch) actions) :
    Runs.EveryState (CadenceState.step cadence serde) (fun s => Cadenced cadence s.store)
      (.start e epoch) actions := by
  -- a cadence in seconds, that of an epoch, or manual payouts, which promise nothing
  cases hGap : cadence.gapSecs with
  | some gap =>
    have hSpaced : Runs.EveryState (CadenceState.step cadence serde) (Spaced gap) (.start e epoch)
        actions :=
      .of_everyStep (fun _ a hKept hIn => hKept.step hGap a hIn) (Spaced.start e epoch) h
    refine hSpaced.mono fun s hs => ⟨fun gap' hGap' => ?_, fun hEpoch => ?_, fun hEpoch => ?_⟩
    · obtain rfl := Option.some.inj (hGap.symm.trans hGap')
      exact hs.paid
    · subst hEpoch
      cases hGap
    · subst hEpoch
      cases hGap
  | none =>
    by_cases hEpoch : cadence = .epoch
    · subst hEpoch
      have hRefusing : Runs.EveryState (CadenceState.step .epoch serde) Refusing (.start e epoch)
          actions :=
        .of_everyStep (fun _ a hKept hIn => hKept.step a hIn) (Refusing.start e epoch) h
      refine hRefusing.mono fun s hs => ⟨nofun, fun _ => ?_, fun _ => hs.unrefused⟩
      rw [hs.paid]
      exact .nil
    · -- manual payouts are not asked for anything
      refine fun n => ⟨fun gap hSome => ?_, fun hIs => absurd hIs hEpoch,
        fun hIs => absurd hIs hEpoch⟩
      rw [hGap] at hSome
      cases hSome

/-- An execution of the first thread, alone, at a clock and with writes that succeed. -/
def soloPayout (now : ℕ) (turns : ℕ) : List CadenceAction :=
  .turn 0 (.execute (toU64 100) "pay") ::
    List.replicate turns (.turn 0 (.next (.ok openConstitution) (toU64 now) .done))

/-- A node with one miner, opened. -/
def minedOpened : OpenedEconomy where
  economy := minedEconomy
  kept := by
    refine ⟨fun e he => ?_, fun e he => ?_, nofun, rfl⟩
    · obtain rfl := List.mem_singleton.mp he
      rfl
    · obtain rfl := List.mem_singleton.mp he
      decide +kernel
  printable := fun e he => by
    obtain rfl := List.mem_singleton.mp he
    decide +kernel

/-- By days, a payout that is made and returned. -/
theorem cadenced_of_inCadence_daily :
    Runs.EveryState (CadenceState.step .daily compactJson) (fun s => Cadenced .daily s.store)
      (.start minedOpened 0) (soloPayout 1000 13) := by
  apply cadenced_of_inCadence
  exact ⟨trivial, trivial, nofun, trivial, trivial, trivial, trivial, trivial, trivial, trivial,
    fun _ => rfl, trivial, trivial, trivial, trivial⟩

/-- By epochs, a payout that is due is refused, whatever the epoch. -/
theorem cadenced_fails :
    ¬ ∀ cadence serde e epoch actions,
      Runs.EveryState (CadenceState.step cadence serde) (fun s => Cadenced cadence s.store)
        (.start e epoch) actions := by
  intro h
  have hLast := (h .epoch compactJson newEconomy 1 (soloPayout 1000 2)).last.unrefused rfl
  exact hLast (by decide)

end KeroseneVault
