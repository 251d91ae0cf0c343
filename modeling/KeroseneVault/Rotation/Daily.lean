import KeroseneVault.Domain.Basic
import KeroseneVault.Lib.Table

/-!
# Daily rotation

`DayEpoch`, a UTC calendar day as the text `YYYY-MM-DD`, and
`QuorumDailyRotation`, which moves the node to a new day when enough voters
name it. The clock, the disk, the peers and the reshare hook are arguments of
one `advance`.

* `DayEpoch.fromUnixSecs` — the day of a clock reading;
* `recordVote`, `advance` — votes and the move to the live day;
* `currentDayEpoch`, `requireEpoch` — the day that a signing session is bound to.

Main result: `advance_cases` — an advance leaves the current day, or moves it
forward to the live day after a quorum of votes for it.
-/

namespace KeroseneVault

/-! ## Day epochs -/

/-- `DayEpoch`, character by character. -/
structure DayEpoch where
  text : List Char
  deriving DecidableEq

namespace DayEpoch

/-- The derived order: the texts compared from the left. -/
instance : LT DayEpoch := ⟨fun a b => a.text < b.text⟩

instance (a b : DayEpoch) : Decidable (a < b) :=
  inferInstanceAs (Decidable (a.text < b.text))

/-- `civil_from_days`: year, month and day of a day count since 1970. -/
def civilFromDays (z : Int) : Int × Nat × Nat :=
  let z := z + 719468
  -- a division of `i64` goes toward zero, which is why a negative count is moved down first
  let era := (if 0 ≤ z then z else z - 146096).tdiv 146097
  let doe := (z - era * 146097).toNat
  let yoe := (doe - doe / 1460 + doe / 36524 - doe / 146096) / 365
  let y := (yoe : Int) + era * 400
  let doy := doe - (365 * yoe + yoe / 4 - yoe / 100)
  let mp := (5 * doy + 2) / 153
  let d := doy - (153 * mp + 2) / 5 + 1
  let m := if mp < 10 then mp + 3 else mp - 9
  (if m ≤ 2 then y + 1 else y, m, d)

/-- `{n:0w}` for an unsigned number. -/
def pad (w n : Nat) : List Char :=
  List.replicate (w - (Nat.toDigits 10 n).length) '0' ++ Nat.toDigits 10 n

/-- `{y:04}` for an `i32`. -/
def padYear (y : Int) : List Char := if y < 0 then '-' :: pad 3 y.natAbs else pad 4 y.natAbs

/-- `DayEpoch::from_unix_secs`; the year is cast to an `i32`. -/
def fromUnixSecs (unixSecs : Nat) : DayEpoch :=
  let (y, m, d) := civilFromDays (unixSecs / 86400 : Nat)
  ⟨padYear (y.bmod (2 ^ 32)) ++ '-' :: pad 2 m ++ '-' :: pad 2 d⟩

/-- `DayEpoch::parse`; the length is in bytes. -/
def parse (raw : String) : Except DomainError DayEpoch :=
  let ok := strLen raw == 10 && raw.toList.length == 10 &&
    (raw.toList.zipIdx.all fun (c, i) => if i == 4 || i == 7 then c == '-' else c.isDigit)
  if ok then .ok ⟨raw.toList⟩ else .error (.invalidIntent s!"invalid day_epoch: {raw}")

theorem text_of_parse {raw : String} {day : DayEpoch} (h : DayEpoch.parse raw = .ok day) :
    day.text = raw.toList := by
  unfold DayEpoch.parse at h
  dsimp only at h
  split at h
  · rw [← Except.ok.inj h]
  · exact absurd h (by simp)

-- 2024-01-01 00:00:00 UTC
example : fromUnixSecs 1704067200 = ⟨"2024-01-01".toList⟩ := by decide

end DayEpoch

/-! ## The rotation -/

/-- A peer's vote for its own day. -/
structure PeerDayVote where
  voter : String
  dayEpoch : DayEpoch
  deriving DecidableEq

/-- `QuorumDailyRotation`. -/
structure QuorumDailyRotation where
  quorumT : Nat
  localVoter : String
  votes : Table String DayEpoch
  current : DayEpoch

/-- What surrounds one advance: the clock, what the peers answer, what the
`n`-th write to disk answers, and what the reshare hook answers. -/
structure Dawn where
  now : Nat
  peers : Except DomainError (List PeerDayVote)
  persist : Nat → Outcome
  reshare : DayEpoch → DayEpoch → List NodeId → Outcome

namespace QuorumDailyRotation

/-- The vote counts in memory also when it is not written. -/
def recordVote (voter : String) (target : DayEpoch) (persisted : Outcome)
    (r : QuorumDailyRotation) : Outcome × QuorumDailyRotation :=
  (persisted, { r with votes := r.votes.insert voter target })

/-- The votes of the peers in turn, the `n`-th write first. -/
def recordVotes (persist : Nat → Outcome) : Nat → List PeerDayVote → QuorumDailyRotation →
    Outcome × QuorumDailyRotation
  | _, [], r => (.ok (), r)
  | n, v :: vs, r =>
    match r.recordVote v.voter v.dayEpoch (persist n) with
    | (.error e, r) => (.error e, r)
    | (.ok (), r) => recordVotes persist (n + 1) vs r

/-- The voters for a day. -/
def votersFor (r : QuorumDailyRotation) (day : DayEpoch) : List String :=
  r.votes.keysWhere fun d => d == day

/-- The voters for a day that the reshare hook is told of. -/
def participants (r : QuorumDailyRotation) (day : DayEpoch) : List NodeId :=
  (r.votersFor day).filterMap fun voter => (NodeId.new voter).toOption

/-- `advance`, once the clock is read. -/
def advanceTo (live : DayEpoch) (c : Dawn) (r : QuorumDailyRotation) :
    Except DomainError DayEpoch × QuorumDailyRotation :=
  match r.recordVote r.localVoter live (c.persist 0) with
  | (.error e, r) => (.error e, r)
  | (.ok (), r) =>
    match c.peers with
    | .error e => (.error e, r)
    | .ok peerVotes =>
      match recordVotes c.persist 1 peerVotes r with
      | (.error e, r) => (.error e, r)
      | (.ok (), r) =>
        let written := c.persist (peerVotes.length + 1)
        if (r.votersFor live).length < r.quorumT then
          (.error (.quorumNotMet (r.votersFor live).length r.quorumT), r)
        else if live = r.current then
          -- idempotent: the disk is brought in line
          (written.map fun _ => live, r)
        else if live < r.current then
          (.error (.dayEpochStale (String.ofList live.text) (String.ofList r.current.text)), r)
        else
          -- the day moves in memory before it is written
          let from_ := r.current
          let r := { r with current := live }
          match written with
          | .error e => (.error e, r)
          | .ok () => ((c.reshare from_ live (r.participants live)).map fun _ => live, r)

def advance (c : Dawn) (r : QuorumDailyRotation) :
    Except DomainError DayEpoch × QuorumDailyRotation :=
  r.advanceTo (DayEpoch.fromUnixSecs c.now) c

/-- `current_day_epoch`: no day once the clock has gone past it. -/
def currentDayEpoch (now : Nat) (r : QuorumDailyRotation) : Except DomainError DayEpoch :=
  let live := DayEpoch.fromUnixSecs now
  if r.current < live then
    .error (.dayEpochStale (String.ofList r.current.text) (String.ofList live.text))
  else .ok r.current

/-- `require_epoch`; the clock is read after the day. -/
def requireEpoch (now : Nat) (bound : DayEpoch) (r : QuorumDailyRotation) : Outcome :=
  let live := DayEpoch.fromUnixSecs now
  if bound ≠ r.current then
    .error (.dayEpochStale (String.ofList bound.text) (String.ofList r.current.text))
  else if r.current < live then
    .error (.dayEpochStale (String.ofList r.current.text) (String.ofList live.text))
  else .ok ()

theorem currentDayEpoch_ok {now : Nat} {r : QuorumDailyRotation} {day : DayEpoch}
    (h : r.currentDayEpoch now = .ok day) : day = r.current := by
  unfold currentDayEpoch at h
  dsimp only at h
  split at h
  · cases h
  · exact (Except.ok.inj h).symm

/-! ## What an advance can do -/

theorem recordVotes_keeps (persist : Nat → Outcome) (n : Nat) (vs : List PeerDayVote)
    (r : QuorumDailyRotation) :
    (recordVotes persist n vs r).2.current = r.current ∧
      (recordVotes persist n vs r).2.quorumT = r.quorumT := by
  induction vs generalizing n r with
  | nil => exact ⟨rfl, rfl⟩
  | cons v vs ih =>
    simp only [recordVotes, recordVote]
    cases persist n with
    | error e => exact ⟨rfl, rfl⟩
    | ok => exact ih (n + 1) _

/-- The votes are all taken when every write answers Ok. -/
theorem recordVotes_ok_iff {persist : Nat → Outcome} {n : Nat} {vs : List PeerDayVote}
    {r : QuorumDailyRotation} :
    (recordVotes persist n vs r).1 = .ok () ↔ ∀ i < vs.length, persist (n + i) = .ok () := by
  induction vs generalizing n r with
  | nil => simp [recordVotes]
  -- a vote that is not written ends the loop, and those after it are not recorded
  | cons v vs ih =>
    simp only [recordVotes, recordVote]
    constructor
    · intro h i hi
      cases hHead : persist n with
      | error e => simp [hHead] at h
      | ok =>
        rw [hHead] at h
        match i with
        | 0 => exact hHead
        | i + 1 =>
          have hTail := ih.mp h i (Nat.lt_of_succ_lt_succ hi)
          rwa [Nat.add_right_comm, Nat.add_assoc] at hTail
    · intro h
      have hHead : persist n = .ok () := h 0 (Nat.succ_pos _)
      rw [hHead]
      refine ih.mpr fun i hi => ?_
      rw [Nat.add_right_comm, Nat.add_assoc]
      exact h (i + 1) (Nat.succ_lt_succ hi)

/-- The entries of votes that are recorded. -/
def voteEntries (vs : List PeerDayVote) : List (String × DayEpoch) :=
  vs.map fun v => (v.voter, v.dayEpoch)

theorem recordVotes_votes {persist : Nat → Outcome} {n : Nat} {vs : List PeerDayVote}
    {r : QuorumDailyRotation} (h : (recordVotes persist n vs r).1 = .ok ()) :
    (recordVotes persist n vs r).2 = { r with votes := r.votes.insertAll (voteEntries vs) } := by
  induction vs generalizing n r with
  | nil => rfl
  | cons v vs ih =>
    simp only [recordVotes, recordVote] at h ⊢
    cases hHead : persist n with
    | error e => simp [hHead] at h
    | ok =>
      rw [hHead] at h
      exact ih h

/-- An advance leaves the current day, or moves it forward to the live day
after a quorum of votes for it. -/
theorem advance_cases (live : DayEpoch) (c : Dawn) (r : QuorumDailyRotation) :
    let r' := (r.advanceTo live c).2
    r'.current = r.current ∨
      (r'.current = live ∧ live ≠ r.current ∧ ¬ live < r.current ∧
        r.quorumT ≤ (r'.votersFor live).length) := by
  simp only [advanceTo, recordVote]
  cases c.persist 0 with
  | error e => exact Or.inl rfl
  | ok =>
    cases c.peers with
    | error e => exact Or.inl rfl
    | ok peerVotes =>
      -- the peers' votes change neither the day nor the quorum
      have hKeeps := recordVotes_keeps c.persist 1 peerVotes
        { r with votes := r.votes.insert r.localVoter live }
      dsimp only
      generalize recordVotes c.persist 1 peerVotes
        { r with votes := r.votes.insert r.localVoter live } = result at hKeeps
      obtain ⟨outcome, voted⟩ := result
      obtain ⟨hCurrent, hQuorum⟩ := hKeeps
      dsimp only at hCurrent hQuorum
      cases outcome with
      | error e => exact Or.inl hCurrent
      | ok =>
        dsimp only
        split
        · exact Or.inl hCurrent
        · rename_i hVotes
          split
          · exact Or.inl hCurrent
          · rename_i hNew
            split
            · exact Or.inl hCurrent
            · -- the day moves, whether or not it is written or reshared
              rename_i hForward
              refine Or.inr ?_
              have hEnough : r.quorumT ≤ (voted.votersFor live).length := by
                rw [← hQuorum]
                exact Nat.le_of_not_lt hVotes
              rw [hCurrent] at hNew hForward
              cases c.persist (peerVotes.length + 1) with
              | error e => exact ⟨rfl, hNew, hForward, hEnough⟩
              | ok => exact ⟨rfl, hNew, hForward, hEnough⟩

end QuorumDailyRotation

end KeroseneVault
