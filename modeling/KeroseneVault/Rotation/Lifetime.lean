import KeroseneVault.Lib.Runs
import KeroseneVault.Rotation.Daily
import Mathlib.Data.Char
import Mathlib.Data.List.Lex

/-!
# The day over a node's life

`QuorumDailyRotation` with the two files it keeps, the day and the votes, over
the life of a node: votes of peers, advances, and restarts that read the files
back or do not find them. Beside it stands a log of what has happened.

A life is more than a sequence of advances: it has restarts, and at a restart the node is
what its files and its clock make of it. The log beside the node is what the two claims are
about, namely whether a day was entered by a roll or by a restart, and whether a roll has
had its reshare. Owing is read off the log alone. That an advance is the one of the plain
rotation on its rotation is proved first, so that what holds there holds in the longer life
as well.

* `DayNode.advance` — the advance with its writes to disk;
* `DayNode.step` — one call, or a restart;
* `Owed` — the last roll into a day has no reshare that went through;
* `Genuine` — every vote held, or on file, was cast.

Main results:

* `advance_rotation` — on the rotation this is `QuorumDailyRotation.advance`;
* `refreshed_iff` — every Ok of an advance has its reshare exactly when no retry
  passes while a reshare is owed;
* `neverSilent_iff` — the day moves forward and by a quorum of votes alone
  exactly when every restart finds the day it left.
-/

namespace KeroseneVault

theorem DayEpoch.lt_of_not_lt {a b : DayEpoch} (h : ¬ b < a) (hNe : b ≠ a) : a < b := by
  have hLe : a.text ≤ b.text := not_lt.mp h
  rcases lt_or_eq_of_le hLe with hLt | hEq
  · exact hLt
  · exact absurd (congrArg DayEpoch.mk hEq.symm) hNe

/-! ## The files -/

/-- The text of the day file and the object of the votes file. -/
structure DayFiles where
  day : Option String
  votes : Option (Table String String)

/-- `load_day_epoch`. -/
def loadDayEpoch (file : Option String) : Option DayEpoch :=
  file.bind fun raw => (DayEpoch.parse (strTrim raw)).toOption

/-- `load_day_votes`: entries whose day does not parse are skipped. -/
def loadDayVotes (file : Option (Table String String)) : Option (Table String DayEpoch) :=
  file.map fun map =>
    Table.insertAll ∅ (map.toPairs.filterMap fun e =>
      (DayEpoch.parse e.2).toOption.map fun day => (e.1, day))

/-- What `persist_day_votes` writes. -/
def serialVotes (votes : Table String DayEpoch) : Table String String :=
  Table.insertAll ∅ (votes.toPairs.map fun e => (e.1, String.ofList e.2.text))

/-! ## The node -/

/-- What happens to the day of a node. -/
inductive DayEvent where
  | voted (voter : String) (target : DayEpoch)
  | rolled (source target : DayEpoch)
  | reshared (source target : DayEpoch) (answer : Outcome)

/-- `QuorumDailyRotation` with its files, and what has happened so far, the
newest first. -/
structure DayNode where
  rotation : QuorumDailyRotation
  /-- is there a `persist_path`? -/
  persistPath : Bool
  files : DayFiles
  log : List DayEvent

/-- What surrounds one advance, with every write to disk of its own. -/
structure DayDawn where
  now : Nat
  peers : Except DomainError (List PeerDayVote)
  /-- the `n`-th write of the votes, the node's own first -/
  vote : Nat → DiskWrite
  dayWrite : DiskWrite
  votesWrite : DiskWrite
  reshare : DayEpoch → DayEpoch → List NodeId → Outcome

namespace DayNode

/-- What a write answers: without a path there is none. -/
def answer (s : DayNode) (w : DiskWrite) : Outcome := if s.persistPath then w.answer else .ok ()

/-- `persist_day_epoch`. -/
def putDay (w : DiskWrite) (epoch : DayEpoch) (s : DayNode) : DayNode :=
  if s.persistPath && w.lands then
    { s with files := { s.files with day := some (String.ofList (epoch.text ++ ['\n'])) } }
  else s

/-- `persist_day_votes`. -/
def putVotes (w : DiskWrite) (s : DayNode) : DayNode :=
  if s.persistPath && w.lands then
    { s with files := { s.files with votes := some (serialVotes s.rotation.votes) } }
  else s

/-- `record_vote`. -/
def recordVote (voter : String) (target : DayEpoch) (w : DiskWrite) (s : DayNode) :
    Outcome × DayNode :=
  let recorded := s.rotation.recordVote voter target (s.answer w)
  (recorded.1,
    putVotes w { s with rotation := recorded.2, log := .voted voter target :: s.log })

/-- The votes of the peers in turn, the `n`-th write first. -/
def recordVotes (w : Nat → DiskWrite) : Nat → List PeerDayVote → DayNode → Outcome × DayNode
  | _, [], s => (.ok (), s)
  | n, v :: vs, s =>
    match s.recordVote v.voter v.dayEpoch (w n) with
    | (.error e, s) => (.error e, s)
    | (.ok (), s) => recordVotes w (n + 1) vs s

/-- `write_persist`. -/
def writePersist (epoch : DayEpoch) (dayWrite votesWrite : DiskWrite) (s : DayNode) :
    Outcome × DayNode :=
  match s.answer dayWrite with
  | .error e => (.error e, s.putDay dayWrite epoch)
  | .ok () => (s.answer votesWrite, (s.putDay dayWrite epoch).putVotes votesWrite)

/-- `advance` up to the tally: the node's own vote and those of its peers. -/
def poll (live : DayEpoch) (c : DayDawn) (s : DayNode) : Outcome × DayNode :=
  match s.recordVote s.rotation.localVoter live (c.vote 0) with
  | (.error e, s) => (.error e, s)
  | (.ok (), s) =>
    match c.peers with
    | .error e => (.error e, s)
    | .ok peerVotes => s.recordVotes c.vote 1 peerVotes

/-- The day moves in memory. -/
def roll (live : DayEpoch) (s : DayNode) : DayNode := { s with
  rotation := { s.rotation with current := live }
  log := .rolled s.rotation.current live :: s.log }

/-- `advance` from the tally on. -/
def tally (live : DayEpoch) (c : DayDawn) (s : DayNode) :
    Except DomainError DayEpoch × DayNode :=
  if (s.rotation.votersFor live).length < s.rotation.quorumT then
    (.error (.quorumNotMet (s.rotation.votersFor live).length s.rotation.quorumT), s)
  else if live = s.rotation.current then
    let written := s.writePersist live c.dayWrite c.votesWrite
    (written.1.map fun _ => live, written.2)
  else if live < s.rotation.current then
    (.error (.dayEpochStale (String.ofList live.text) (String.ofList s.rotation.current.text)), s)
  else
    -- the day moves in memory before it is written
    let source := s.rotation.current
    match (s.roll live).writePersist live c.dayWrite c.votesWrite with
    | (.error e, s) => (.error e, s)
    | (.ok (), s) =>
      let reshared := c.reshare source live (s.rotation.participants live)
      (reshared.map fun _ => live, { s with log := .reshared source live reshared :: s.log })

/-- `advance`, once the clock is read. -/
def advanceTo (live : DayEpoch) (c : DayDawn) (s : DayNode) :
    Except DomainError DayEpoch × DayNode :=
  match s.poll live c with
  | (.error e, s) => (.error e, s)
  | (.ok (), s) => s.tally live c

def advance (c : DayDawn) (s : DayNode) : Except DomainError DayEpoch × DayNode :=
  s.advanceTo (DayEpoch.fromUnixSecs c.now) c

end DayNode

/-- What a restart comes up with: the configuration, the clock, and whether each
file can be read. -/
structure DayBoot where
  quorumT : Nat
  localVoter : String
  persistPath : Bool
  now : Nat
  dayRead : Bool
  votesRead : Bool

inductive DayCall where
  | recordVote (voter : String) (target : DayEpoch) (w : DiskWrite)
  | advance (c : DayDawn)
  | restart (b : DayBoot)

namespace DayNode

/-- The day a restart reads from its file. -/
def dayOnFile (b : DayBoot) (s : DayNode) : Option DayEpoch :=
  if b.persistPath && b.dayRead then loadDayEpoch s.files.day else none

/-- The votes a restart reads from their file. -/
def votesOnFile (b : DayBoot) (s : DayNode) : Option (Table String DayEpoch) :=
  if b.persistPath && b.votesRead then loadDayVotes s.files.votes else none

/-- `with_persist_path`. A process that is killed within an advance leaves what
an advance leaves whose write or whose hook fails there. -/
def restart (b : DayBoot) (s : DayNode) : DayNode := { s with
  rotation := {
    quorumT := max b.quorumT 1
    localVoter := b.localVoter
    votes := (s.votesOnFile b).getD ∅
    current := (s.dayOnFile b).getD (DayEpoch.fromUnixSecs b.now) }
  persistPath := b.persistPath }

def step (s : DayNode) : DayCall → DayNode
  | .recordVote voter target w => (s.recordVote voter target w).2
  | .advance c => (s.advance c).2
  | .restart b => s.restart b

/-- The first boot, without files. -/
def boot (b : DayBoot) : DayNode :=
  restart b ⟨⟨1, b.localVoter, ∅, DayEpoch.fromUnixSecs b.now⟩, b.persistPath, ⟨none, none⟩, []⟩

/-! ## The rotation of an advance -/

@[simp] theorem putDay_rotation (w : DiskWrite) (epoch : DayEpoch) (s : DayNode) :
    (s.putDay w epoch).rotation = s.rotation := by
  unfold putDay
  split
  · rfl
  · rfl

@[simp] theorem putDay_persistPath (w : DiskWrite) (epoch : DayEpoch) (s : DayNode) :
    (s.putDay w epoch).persistPath = s.persistPath := by
  unfold putDay
  split
  · rfl
  · rfl

@[simp] theorem putDay_log (w : DiskWrite) (epoch : DayEpoch) (s : DayNode) :
    (s.putDay w epoch).log = s.log := by
  unfold putDay
  split
  · rfl
  · rfl

@[simp] theorem putVotes_rotation (w : DiskWrite) (s : DayNode) :
    (s.putVotes w).rotation = s.rotation := by
  unfold putVotes
  split
  · rfl
  · rfl

@[simp] theorem putVotes_persistPath (w : DiskWrite) (s : DayNode) :
    (s.putVotes w).persistPath = s.persistPath := by
  unfold putVotes
  split
  · rfl
  · rfl

@[simp] theorem putVotes_log (w : DiskWrite) (s : DayNode) : (s.putVotes w).log = s.log := by
  unfold putVotes
  split
  · rfl
  · rfl

theorem recordVote_eq (voter : String) (target : DayEpoch) (w : DiskWrite) (s : DayNode) :
    (s.recordVote voter target w).1 = s.answer w ∧
      (s.recordVote voter target w).2.rotation =
        { s.rotation with votes := s.rotation.votes.insert voter target } ∧
      (s.recordVote voter target w).2.persistPath = s.persistPath ∧
      (s.recordVote voter target w).2.log = .voted voter target :: s.log := by
  unfold recordVote
  simp [QuorumDailyRotation.recordVote]

theorem writePersist_keeps (epoch : DayEpoch) (dayWrite votesWrite : DiskWrite) (s : DayNode) :
    (s.writePersist epoch dayWrite votesWrite).2.rotation = s.rotation ∧
      (s.writePersist epoch dayWrite votesWrite).2.log = s.log := by
  unfold writePersist
  split
  · simp
  · simp

/-- Both files are written. -/
theorem writePersist_ok_iff {epoch : DayEpoch} {dayWrite votesWrite : DiskWrite} {s : DayNode} :
    (s.writePersist epoch dayWrite votesWrite).1 = .ok () ↔
      s.answer dayWrite = .ok () ∧ s.answer votesWrite = .ok () := by
  unfold writePersist
  cases s.answer dayWrite with
  | error e => simp
  | ok => simp

/-- What the rotation sees of a dawn. -/
def dawn (s : DayNode) (c : DayDawn) : Dawn where
  now := c.now
  peers := c.peers
  persist n :=
    match c.peers with
    | .error _ => s.answer (c.vote n)
    | .ok peerVotes =>
      if n ≤ peerVotes.length then s.answer (c.vote n)
      else match s.answer c.dayWrite with
        | .error e => .error e
        | .ok () => s.answer c.votesWrite
  reshare := c.reshare

/-- The votes of the peers, on the rotation. -/
theorem recordVotes_rotation {persist : Nat → Outcome} {w : Nat → DiskWrite} {n : Nat}
    {vs : List PeerDayVote} {s : DayNode}
    (h : ∀ i < vs.length, persist (n + i) = s.answer (w (n + i))) :
    ((s.recordVotes w n vs).1, (s.recordVotes w n vs).2.rotation) =
      QuorumDailyRotation.recordVotes persist n vs s.rotation := by
  induction vs generalizing n s with
  | nil => rfl
  -- the answer of the first write is the one the plain rotation is given
  | cons v vs ih =>
    obtain ⟨hAnswer, hRotation, hPath, -⟩ := recordVote_eq v.voter v.dayEpoch (w n) s
    have hHead : persist n = s.answer (w n) := h 0 (Nat.succ_pos _)
    simp only [recordVotes, QuorumDailyRotation.recordVotes, QuorumDailyRotation.recordVote]
    generalize s.recordVote v.voter v.dayEpoch (w n) = recorded at hAnswer hRotation hPath
    obtain ⟨outcome, next⟩ := recorded
    dsimp only at hAnswer hRotation hPath
    rw [hHead, ← hAnswer]
    cases outcome with
    | error e =>
      dsimp only
      rw [hRotation]
    | ok =>
      dsimp only
      rw [← hRotation]
      refine ih fun i hi => ?_
      have hTail := h (i + 1) (Nat.succ_lt_succ hi)
      rw [answer, hPath, ← answer, Nat.add_right_comm n 1 i]
      exact hTail

/-- Up to the tally only votes happen, and the current day stays. -/
structure Polled (s s' : DayNode) : Prop where
  current : s'.rotation.current = s.rotation.current
  quorumT : s'.rotation.quorumT = s.rotation.quorumT
  persistPath : s'.persistPath = s.persistPath
  log : ∃ cast : List PeerDayVote,
    s'.log = cast.map (fun v => .voted v.voter v.dayEpoch) ++ s.log

theorem Polled.trans {s s' s'' : DayNode} (h : Polled s s') (h' : Polled s' s'') :
    Polled s s'' := by
  obtain ⟨cast, hCast⟩ := h.log
  obtain ⟨cast', hCast'⟩ := h'.log
  refine ⟨h'.current.trans h.current, h'.quorumT.trans h.quorumT,
    h'.persistPath.trans h.persistPath, cast' ++ cast, ?_⟩
  rw [hCast', hCast, List.map_append, List.append_assoc]

theorem polled_recordVote (voter : String) (target : DayEpoch) (w : DiskWrite) (s : DayNode) :
    Polled s (s.recordVote voter target w).2 := by
  obtain ⟨-, hRotation, hPath, hLog⟩ := recordVote_eq voter target w s
  refine ⟨?_, ?_, hPath, [⟨voter, target⟩], hLog⟩
  · rw [hRotation]
  · rw [hRotation]

theorem polled_recordVotes (w : Nat → DiskWrite) (n : Nat) (vs : List PeerDayVote)
    (s : DayNode) : Polled s (s.recordVotes w n vs).2 := by
  induction vs generalizing n s with
  | nil => exact ⟨rfl, rfl, rfl, [], rfl⟩
  | cons v vs ih =>
    have hHead := polled_recordVote v.voter v.dayEpoch (w n) s
    simp only [recordVotes]
    generalize s.recordVote v.voter v.dayEpoch (w n) = recorded at hHead
    obtain ⟨outcome, next⟩ := recorded
    cases outcome with
    | error e => exact hHead
    | ok => exact hHead.trans (ih (n + 1) next)

theorem polled_poll (live : DayEpoch) (c : DayDawn) (s : DayNode) :
    Polled s (s.poll live c).2 := by
  have hOwn := polled_recordVote s.rotation.localVoter live (c.vote 0) s
  unfold poll
  generalize s.recordVote s.rotation.localVoter live (c.vote 0) = recorded at hOwn
  obtain ⟨outcome, next⟩ := recorded
  cases outcome with
  | error e => exact hOwn
  | ok =>
    cases c.peers with
    | error e => exact hOwn
    | ok peerVotes => exact hOwn.trans (polled_recordVotes c.vote 1 peerVotes next)

/-- The rotation once these peers have voted. -/
def votesTaken (s : DayNode) (live : DayEpoch) (peerVotes : List PeerDayVote) :
    QuorumDailyRotation := { s.rotation with
  votes := Table.insertAll (s.rotation.votes.insert s.rotation.localVoter live)
    (QuorumDailyRotation.voteEntries peerVotes) }

/-- An advance gets to the tally when the peers are asked and every vote is
written. -/
theorem poll_ok_iff (live : DayEpoch) (c : DayDawn) (s : DayNode) {r : QuorumDailyRotation} :
    (s.poll live c).1 = .ok () ∧ (s.poll live c).2.rotation = r ↔
      ∃ peerVotes, c.peers = .ok peerVotes ∧
        (∀ n ≤ peerVotes.length, s.answer (c.vote n) = .ok ()) ∧
        s.votesTaken live peerVotes = r := by
  obtain ⟨hAnswer, hRotation, hPath, -⟩ :=
    recordVote_eq s.rotation.localVoter live (c.vote 0) s
  unfold poll
  generalize s.recordVote s.rotation.localVoter live (c.vote 0) = recorded
    at hAnswer hRotation hPath
  obtain ⟨outcome, next⟩ := recorded
  dsimp only at hAnswer hRotation hPath
  cases outcome with
  | error e =>
    refine iff_of_false (fun h => absurd h.1 (by simp)) ?_
    rintro ⟨peerVotes, -, hWrites, -⟩
    rw [hWrites 0 (Nat.zero_le _)] at hAnswer
    exact absurd hAnswer (by simp)
  | ok =>
    cases hPeers : c.peers with
    | error e => simp
    | ok peerVotes =>
      dsimp only
      -- the votes of the peers on the rotation, with the same answers
      have hSame : ∀ w, next.answer w = s.answer w := fun w => by rw [answer, hPath, ← answer]
      have hPeerVotes : _ = QuorumDailyRotation.recordVotes (fun n => s.answer (c.vote n)) 1
          peerVotes next.rotation := recordVotes_rotation fun i _ => (hSame (c.vote (1 + i))).symm
      have hOutcome := congrArg Prod.fst hPeerVotes
      have hNext := congrArg Prod.snd hPeerVotes
      dsimp only at hOutcome hNext
      rw [hOutcome, hNext]
      have hTaken (hOk : (QuorumDailyRotation.recordVotes (fun n => s.answer (c.vote n)) 1
          peerVotes next.rotation).1 = .ok ()) :
          (QuorumDailyRotation.recordVotes (fun n => s.answer (c.vote n)) 1 peerVotes
            next.rotation).2 = s.votesTaken live peerVotes := by
        rw [QuorumDailyRotation.recordVotes_votes hOk, hRotation]
        rfl
      constructor
      · rintro ⟨hOk, rfl⟩
        refine ⟨peerVotes, rfl, fun n hn => ?_, (hTaken hOk).symm⟩
        match n with
        | 0 => exact hAnswer.symm
        | n + 1 =>
          have hWrite := QuorumDailyRotation.recordVotes_ok_iff.mp hOk n hn
          rwa [Nat.add_comm] at hWrite
      · rintro ⟨_, hEq, hWrites, rfl⟩
        obtain rfl := Except.ok.inj hEq
        have hOk : (QuorumDailyRotation.recordVotes (fun n => s.answer (c.vote n)) 1 peerVotes
            next.rotation).1 = .ok () :=
          QuorumDailyRotation.recordVotes_ok_iff.mpr fun i hi => hWrites (1 + i) (by omega)
        exact ⟨hOk, hTaken hOk⟩

theorem writePersist_dawn {c : DayDawn} {s next : DayNode} {peerVotes : List PeerDayVote}
    (hPeers : c.peers = .ok peerVotes) (hPath : next.persistPath = s.persistPath)
    (epoch : DayEpoch) :
    (next.writePersist epoch c.dayWrite c.votesWrite).1 =
      (s.dawn c).persist (peerVotes.length + 1) := by
  have hSame : ∀ w, next.answer w = s.answer w := fun w => by rw [answer, hPath, ← answer]
  unfold writePersist dawn
  rw [hSame, hSame]
  simp only [hPeers]
  rw [if_neg (by omega)]
  cases s.answer c.dayWrite with
  | error e => rfl
  | ok => rfl

theorem dawn_vote {c : DayDawn} {s : DayNode} {peerVotes : List PeerDayVote}
    (hPeers : c.peers = .ok peerVotes) {n : Nat} (hn : n ≤ peerVotes.length) :
    (s.dawn c).persist n = s.answer (c.vote n) := by
  unfold dawn
  simp only [hPeers]
  rw [if_pos hn]

/-- An advance is the plain one on its rotation, with what its files answered. -/
theorem advanceTo_rotation (live : DayEpoch) (c : DayDawn) (s : DayNode) :
    ((s.advanceTo live c).1, (s.advanceTo live c).2.rotation) =
      s.rotation.advanceTo live (s.dawn c) := by
  have hOwn : (s.dawn c).persist 0 = s.answer (c.vote 0) := by
    cases hPeers : c.peers with
    | error e => simp only [dawn, hPeers]
    | ok peerVotes => exact dawn_vote hPeers (Nat.zero_le _)
  have hSamePeers : (s.dawn c).peers = c.peers := rfl
  have hSameReshare : (s.dawn c).reshare = c.reshare := rfl
  -- both go through the own vote, the peers, the tally and the reshare in this order
  unfold advanceTo poll QuorumDailyRotation.advanceTo QuorumDailyRotation.recordVote
  simp only [hOwn, hSamePeers, hSameReshare]
  obtain ⟨hAnswer, hRotation, hPath, -⟩ :=
    recordVote_eq s.rotation.localVoter live (c.vote 0) s
  generalize s.recordVote s.rotation.localVoter live (c.vote 0) = recorded
    at hAnswer hRotation hPath
  obtain ⟨outcome, next⟩ := recorded
  dsimp only at hAnswer hRotation hPath
  rw [← hAnswer, ← hRotation]
  cases outcome with
  | error e => rfl
  | ok =>
    cases hPeers : c.peers with
    | error e => rfl
    | ok peerVotes =>
      dsimp only
      have hPolled := polled_recordVotes c.vote 1 peerVotes next
      have hVotes : _ = QuorumDailyRotation.recordVotes (s.dawn c).persist 1 peerVotes
          next.rotation := recordVotes_rotation (w := c.vote) fun i hi => by
        rw [dawn_vote hPeers (by omega), answer, ← hPath, ← answer]
      rw [← hVotes]
      generalize next.recordVotes c.vote 1 peerVotes = voted at hPolled
      obtain ⟨outcome, voted⟩ := voted
      have hVotedPath : voted.persistPath = s.persistPath := hPolled.persistPath.trans hPath
      cases outcome with
      | error e => rfl
      | ok =>
        dsimp only
        unfold tally
        have hWritten (n : DayNode) (hn : n.persistPath = s.persistPath) :=
          writePersist_dawn hPeers hn live
        split
        · rfl
        · split
          · -- the disk is brought in line
            rw [← hWritten voted hVotedPath]
            exact Prod.ext rfl (writePersist_keeps ..).1
          · split
            · rfl
            · dsimp only
              rw [← hWritten (voted.roll live) hVotedPath]
              have hKept := writePersist_keeps live c.dayWrite c.votesWrite (voted.roll live)
              generalize (voted.roll live).writePersist live c.dayWrite c.votesWrite = written
                at hKept
              obtain ⟨outcome, written⟩ := written
              obtain ⟨hKeptRotation, -⟩ := hKept
              dsimp only at hKeptRotation
              cases outcome with
              | error e => exact Prod.ext rfl hKeptRotation
              | ok =>
                dsimp only
                rw [hKeptRotation]
                simp only [roll]

/-- On the rotation this is `QuorumDailyRotation.advance`. -/
theorem advance_rotation (c : DayDawn) (s : DayNode) :
    ((s.advance c).1, (s.advance c).2.rotation) = s.rotation.advance (s.dawn c) :=
  advanceTo_rotation (DayEpoch.fromUnixSecs c.now) c s

/-! ## A roll and its reshare -/

/-- The last roll into the day has no reshare that went through. -/
def owed (day : DayEpoch) : List DayEvent → Bool
  | [] => false
  | .voted _ _ :: log => owed day log
  | .rolled _ target :: log => if target = day then true else owed day log
  | .reshared _ target answer :: log =>
    if target = day ∧ returnedOk answer then false else owed day log

@[simp] theorem owed_votes (day : DayEpoch) (cast : List PeerDayVote) (log : List DayEvent) :
    owed day (cast.map (fun v => .voted v.voter v.dayEpoch) ++ log) = owed day log := by
  induction cast with
  | nil => rfl
  | cons v cast ih => exact ih

theorem Polled.owed {s s' : DayNode} (h : Polled s s') (day : DayEpoch) :
    owed day s'.log = owed day s.log := by
  obtain ⟨cast, hCast⟩ := h.log
  rw [hCast, owed_votes]

/-- An advance gets past the votes, the tally and the writes. -/
def Passes (s : DayNode) (c : DayDawn) : Prop :=
  ∃ peerVotes, c.peers = .ok peerVotes ∧
    (∀ n ≤ peerVotes.length, s.answer (c.vote n) = .ok ()) ∧
    s.rotation.quorumT ≤
      ((s.votesTaken (DayEpoch.fromUnixSecs c.now) peerVotes).votersFor
        (DayEpoch.fromUnixSecs c.now)).length ∧
    s.answer c.dayWrite = .ok () ∧ s.answer c.votesWrite = .ok ()

/-- An Ok of an advance comes with the reshare of the last roll into its day. -/
def Refreshed (s : DayNode) : DayCall → Prop
  | .advance c => ∀ day, (s.advance c).1 = .ok day → owed day (s.advance c).2.log = false
  | _ => True

/-- No advance of a day the node is on already passes while a reshare is owed. -/
def RetriesRefreshed (s : DayNode) : DayCall → Prop
  | .advance c => s.Passes c → DayEpoch.fromUnixSecs c.now = s.rotation.current →
      owed s.rotation.current s.log = false
  | _ => True

/-- From the tally on, an Ok while a reshare is owed is the idempotent one. -/
theorem tally_owed_iff {live : DayEpoch} {c : DayDawn} {s : DayNode} :
    (∃ day, (s.tally live c).1 = .ok day ∧ owed day (s.tally live c).2.log = true) ↔
      (s.rotation.quorumT ≤ (s.rotation.votersFor live).length ∧
        s.answer c.dayWrite = .ok () ∧ s.answer c.votesWrite = .ok ()) ∧
      live = s.rotation.current ∧ owed live s.log = true := by
  unfold tally
  split
  · rename_i hVotes
    refine iff_of_false ?_ fun h => absurd h.1.1 (Nat.not_le_of_lt hVotes)
    rintro ⟨day, hOk, -⟩
    exact absurd hOk (by simp)
  rename_i hVotes
  have hEnough : s.rotation.quorumT ≤ (s.rotation.votersFor live).length := Nat.le_of_not_lt hVotes
  split
  · rename_i hSame
    have hLog := (writePersist_keeps live c.dayWrite c.votesWrite s).2
    have hWritten : (s.writePersist live c.dayWrite c.votesWrite).1 = .ok () ↔
        s.answer c.dayWrite = .ok () ∧ s.answer c.votesWrite = .ok () := writePersist_ok_iff
    dsimp only
    rw [hLog]
    cases hAnswer : (s.writePersist live c.dayWrite c.votesWrite).1 with
    | error e =>
      refine iff_of_false ?_ fun h => ?_
      · rintro ⟨day, hOk, -⟩
        exact absurd hOk (by simp [Except.map])
      · rw [hWritten.mpr h.1.2] at hAnswer
        exact absurd hAnswer (by simp)
    | ok =>
      constructor
      · rintro ⟨day, hOk, hOwed⟩
        obtain rfl : live = day := Except.ok.inj hOk
        exact ⟨⟨hEnough, hWritten.mp hAnswer⟩, hSame, hOwed⟩
      · rintro ⟨-, -, hOwed⟩
        exact ⟨live, rfl, hOwed⟩
  · rename_i hNew
    refine iff_of_false ?_ fun h => hNew h.2.1
    rintro ⟨day, hOk, hOwed⟩
    split at hOk
    · exact absurd hOk (by simp)
    · rename_i hForward
      rw [if_neg hForward] at hOwed
      dsimp only at hOk hOwed
      cases hWritten : (s.roll live).writePersist live c.dayWrite c.votesWrite with
      | mk outcome written =>
        rw [hWritten] at hOk hOwed
        cases outcome with
        | error e => exact absurd hOk (by simp)
        | ok =>
          -- an Ok after a roll is an Ok of the hook
          dsimp only at hOk hOwed
          cases hHook : c.reshare s.rotation.current live (written.rotation.participants live) with
          | error e =>
            rw [hHook] at hOk
            exact absurd hOk (by simp [Except.map])
          | ok =>
            rw [hHook] at hOk hOwed
            obtain rfl : live = day := Except.ok.inj hOk
            simp [owed, returnedOk] at hOwed

/-- An advance returns Ok while a reshare is owed exactly when it passes on the
current day with that reshare owed already. -/
theorem advance_owed_iff {c : DayDawn} {s : DayNode} :
    (∃ day, (s.advance c).1 = .ok day ∧ owed day (s.advance c).2.log = true) ↔
      s.Passes c ∧ DayEpoch.fromUnixSecs c.now = s.rotation.current ∧
        owed s.rotation.current s.log = true := by
  have hPolled := polled_poll (DayEpoch.fromUnixSecs c.now) c s
  have hPoll (r : QuorumDailyRotation) :=
    poll_ok_iff (DayEpoch.fromUnixSecs c.now) c s (r := r)
  unfold advance advanceTo Passes
  generalize DayEpoch.fromUnixSecs c.now = live at *
  generalize s.poll live c = polled at hPolled hPoll
  obtain ⟨outcome, next⟩ := polled
  have hSame : ∀ w, next.answer w = s.answer w := fun w => by
    rw [answer, hPolled.persistPath, ← answer]
  have hQuorum : next.rotation.quorumT = s.rotation.quorumT := hPolled.quorumT
  have hCurrent : next.rotation.current = s.rotation.current := hPolled.current
  have hOwed : ∀ day, owed day next.log = owed day s.log := hPolled.owed
  dsimp only at hPoll
  cases outcome with
  | error e =>
    refine iff_of_false ?_ ?_
    · rintro ⟨day, hOk, -⟩
      exact absurd hOk (by simp)
    · rintro ⟨⟨peerVotes, hPeers, hWrites, -⟩, -⟩
      have hOk := ((hPoll _).mpr ⟨peerVotes, hPeers, hWrites, rfl⟩).1
      exact absurd hOk (by simp)
  | ok =>
    -- votes owe no reshare, so that only the tally is left
    obtain ⟨peerVotes, hPeers, hWrites, hTaken⟩ := (hPoll _).mp ⟨rfl, rfl⟩
    dsimp only
    rw [tally_owed_iff, hSame, hSame, hQuorum, hCurrent, hOwed, ← hTaken]
    constructor
    · rintro ⟨⟨hVotes, hDay, hVotesFile⟩, rfl, hStill⟩
      exact ⟨⟨peerVotes, hPeers, hWrites, hVotes, hDay, hVotesFile⟩, rfl, hStill⟩
    · rintro ⟨⟨peerVotes', hPeers', -, hVotes, hDay, hVotesFile⟩, rfl, hStill⟩
      obtain rfl : peerVotes = peerVotes' := Except.ok.inj (hPeers.symm.trans hPeers')
      exact ⟨⟨hVotes, hDay, hVotesFile⟩, rfl, hStill⟩

/-- An Ok has its reshare, unless it is that of a retry that owes one. -/
theorem refreshed_step_iff (s : DayNode) (call : DayCall) :
    s.Refreshed call ↔ s.RetriesRefreshed call := by
  match call with
  | .recordVote _ _ _ => exact Iff.rfl
  | .restart _ => exact Iff.rfl
  | .advance c =>
    have hOwed := advance_owed_iff (c := c) (s := s)
    constructor
    · intro h hPasses hDay
      by_contra hStill
      obtain ⟨day, hOk, hNow⟩ := hOwed.mpr ⟨hPasses, hDay, by simpa using hStill⟩
      rw [h day hOk] at hNow
      exact absurd hNow (by decide)
    · intro h day hOk
      by_contra hStill
      obtain ⟨hPasses, hDay, hBefore⟩ := hOwed.mp ⟨day, hOk, by simpa using hStill⟩
      rw [h hPasses hDay] at hBefore
      exact absurd hBefore (by decide)

/-- **Day roll and reshare.** Over the life of a node, every Ok of an advance
comes with the reshare of the last roll into its day exactly when no advance of
a day the node is on already passes while that reshare is owed. -/
theorem refreshed_iff (b : DayBoot) (calls : List DayCall) :
    Runs.EveryStep step Refreshed (boot b) calls ↔
      Runs.EveryStep step RetriesRefreshed (boot b) calls :=
  ⟨Runs.EveryStep.mono fun s call => (s.refreshed_step_iff call).mp,
    Runs.EveryStep.mono fun s call => (s.refreshed_step_iff call).mpr⟩

/-- A boot on 2024-01-01 of a node whose own vote is enough. -/
def soloBoot : DayBoot := ⟨1, "v1", true, 1704067200, true, true⟩

/-- The next day, with a disk that takes everything. -/
def nextDay (reshare : Outcome) : DayDawn :=
  ⟨1704067200 + 86400, .ok [], fun _ => .done, .done, .done, fun _ _ _ => reshare⟩

/-- The hook fails, and the retry is Ok without it. -/
theorem refreshed_fails :
    ¬ ∀ b calls, Runs.EveryStep step Refreshed (boot b) calls := by
  intro h
  have hRun := h soloBoot [.advance (nextDay (.error (.thresholdError "reshare"))),
    .advance (nextDay (.error (.thresholdError "reshare")))]
  have hRetry := hRun.2.1 ⟨"2024-01-02".toList⟩ (by decide +kernel)
  exact absurd hRetry (by decide +kernel)

/-! ## Votes and days across restarts -/

/-- Every vote held, and every vote on file, was cast. -/
structure Genuine (s : DayNode) : Prop where
  held : ∀ voter day, s.rotation.votes.lookup voter = some day → .voted voter day ∈ s.log
  onFile : ∀ map, s.files.votes = some map → ∀ voter text, map.lookup voter = some text →
    .voted voter ⟨text.toList⟩ ∈ s.log

/-- The current day stays, or an advance moves it forward after enough distinct
voters voted for the new one. -/
def NeverSilent (s : DayNode) (call : DayCall) : Prop :=
  (s.step call).rotation.current = s.rotation.current ∨
    (∃ c, call = .advance c) ∧ s.rotation.current < (s.step call).rotation.current ∧
      ∃ voters : List String, voters.Nodup ∧ s.rotation.quorumT ≤ voters.length ∧
        ∀ voter ∈ voters, .voted voter (s.step call).rotation.current ∈ (s.step call).log

/-- A restart finds the current day: in its file, or, where that gives none, on
the clock. -/
def FindsDay (s : DayNode) : DayCall → Prop
  | .restart b =>
    match s.dayOnFile b with
    | some day => day = s.rotation.current
    | none => DayEpoch.fromUnixSecs b.now = s.rotation.current
  | _ => True

theorem mem_serialVotes {votes : Table String DayEpoch} {voter text : String}
    (h : (serialVotes votes).lookup voter = some text) :
    votes.lookup voter = some ⟨text.toList⟩ := by
  rcases Table.lookup_insertAll h with hNone | hMem
  · exact absurd hNone (by simp)
  · obtain ⟨⟨voter', day⟩, hEntry, hEq⟩ := List.mem_map.mp hMem
    obtain ⟨rfl, rfl⟩ := Prod.mk.inj hEq
    rw [String.toList_ofList]
    exact Table.mem_toPairs.mp hEntry

theorem mem_loadDayVotes {file : Option (Table String String)} {votes : Table String DayEpoch}
    (hLoad : loadDayVotes file = some votes) {voter : String} {day : DayEpoch}
    (h : votes.lookup voter = some day) :
    ∃ map text, file = some map ∧ map.lookup voter = some text ∧ day = ⟨text.toList⟩ := by
  obtain ⟨map, rfl, rfl⟩ := Option.map_eq_some_iff.mp hLoad
  rcases Table.lookup_insertAll h with hNone | hMem
  · exact absurd hNone (by simp)
  · obtain ⟨⟨voter', text⟩, hEntry, hEq⟩ := List.mem_filterMap.mp hMem
    obtain ⟨day', hParse, hPair⟩ := Option.map_eq_some_iff.mp hEq
    obtain ⟨rfl, rfl⟩ := Prod.mk.inj hPair
    refine ⟨map, text, rfl, Table.mem_toPairs.mp hEntry, ?_⟩
    cases hText : DayEpoch.parse text with
    | error e =>
      rw [hText] at hParse
      exact absurd hParse (by simp [Except.toOption])
    | ok parsed =>
      rw [hText] at hParse
      obtain rfl := Option.some.inj hParse
      rw [← DayEpoch.text_of_parse hText]

namespace Genuine

variable {s : DayNode}

theorem putVotes (h : Genuine s) (w : DiskWrite) : Genuine (s.putVotes w) := by
  unfold DayNode.putVotes
  split
  · refine ⟨h.held, fun map hMap voter text hText => ?_⟩
    obtain rfl := Option.some.inj hMap
    exact h.held voter _ (mem_serialVotes hText)
  · exact h

theorem putDay (h : Genuine s) (w : DiskWrite) (epoch : DayEpoch) : Genuine (s.putDay w epoch) := by
  unfold DayNode.putDay
  split
  · exact ⟨h.held, h.onFile⟩
  · exact h

/-- Another event, and the votes as they are. -/
theorem event (h : Genuine s) (e : DayEvent) (current : DayEpoch) :
    Genuine { s with rotation := { s.rotation with current := current }, log := e :: s.log } :=
  ⟨fun voter day hVote => List.mem_cons_of_mem _ (h.held voter day hVote),
    fun map hMap voter text hText => List.mem_cons_of_mem _ (h.onFile map hMap voter text hText)⟩

theorem recordVote (h : Genuine s) (voter : String) (target : DayEpoch) (w : DiskWrite) :
    Genuine (s.recordVote voter target w).2 := by
  unfold DayNode.recordVote
  refine putVotes (s := ⟨_, _, _, _⟩) ⟨fun voter' day hVote => ?_, fun map hMap voter' text hText =>
    List.mem_cons_of_mem _ (h.onFile map hMap voter' text hText)⟩ w
  have hDay : (s.rotation.votes.insert voter target).lookup voter' = some day := hVote
  rcases Table.lookup_insert_eq_some.mp hDay with ⟨rfl, rfl⟩ | ⟨-, hOld⟩
  · -- the vote that is recorded now
    exact List.mem_cons_self ..
  · exact List.mem_cons_of_mem _ (h.held voter' day hOld)

theorem recordVotes (h : Genuine s) (w : Nat → DiskWrite) (n : Nat) (vs : List PeerDayVote) :
    Genuine (s.recordVotes w n vs).2 := by
  induction vs generalizing n s with
  | nil => exact h
  | cons v vs ih =>
    have hHead := h.recordVote v.voter v.dayEpoch (w n)
    simp only [DayNode.recordVotes]
    generalize s.recordVote v.voter v.dayEpoch (w n) = recorded at hHead
    obtain ⟨outcome, next⟩ := recorded
    match outcome with
    | .error e => exact hHead
    | .ok () => exact ih hHead (n + 1)

theorem writePersist (h : Genuine s) (epoch : DayEpoch) (dayWrite votesWrite : DiskWrite) :
    Genuine (s.writePersist epoch dayWrite votesWrite).2 := by
  unfold DayNode.writePersist
  split
  · exact h.putDay dayWrite epoch
  · exact (h.putDay dayWrite epoch).putVotes votesWrite

/-- A poll makes no vote up. -/
theorem poll (h : Genuine s) (live : DayEpoch) (c : DayDawn) : Genuine (s.poll live c).2 := by
  have hOwn := h.recordVote s.rotation.localVoter live (c.vote 0)
  unfold DayNode.poll
  generalize s.recordVote s.rotation.localVoter live (c.vote 0) = recorded at hOwn
  obtain ⟨outcome, next⟩ := recorded
  match outcome with
  | .error e => exact hOwn
  | .ok () =>
    cases c.peers with
    | error e => exact hOwn
    | ok peerVotes => exact hOwn.recordVotes c.vote 1 peerVotes

theorem tally (h : Genuine s) (live : DayEpoch) (c : DayDawn) : Genuine (s.tally live c).2 := by
  unfold DayNode.tally
  split
  · exact h
  split
  · exact h.writePersist live c.dayWrite c.votesWrite
  split
  · exact h
  have hRolled : Genuine (s.roll live) := h.event (.rolled s.rotation.current live) live
  have hWritten := hRolled.writePersist live c.dayWrite c.votesWrite
  dsimp only
  generalize (s.roll live).writePersist live c.dayWrite c.votesWrite = written at hWritten
  obtain ⟨outcome, written⟩ := written
  match outcome with
  | .error e => exact hWritten
  | .ok () => exact hWritten.event _ written.rotation.current

theorem advance (h : Genuine s) (c : DayDawn) : Genuine (s.advance c).2 := by
  have hPolled := h.poll (DayEpoch.fromUnixSecs c.now) c
  unfold DayNode.advance DayNode.advanceTo
  generalize DayEpoch.fromUnixSecs c.now = live at *
  generalize s.poll live c = polled at hPolled
  obtain ⟨outcome, next⟩ := polled
  match outcome with
  | .error e => exact hPolled
  | .ok () => exact hPolled.tally live c

/-- The votes a restart reads were on file. -/
theorem restart (h : Genuine s) (b : DayBoot) : Genuine (s.restart b) := by
  refine ⟨fun voter day hVote => ?_, h.onFile⟩
  have hRead : ((s.votesOnFile b).getD ∅).lookup voter = some day := hVote
  cases hFile : s.votesOnFile b with
  | none =>
    rw [hFile] at hRead
    exact absurd hRead (by simp)
  | some votes =>
    rw [hFile] at hRead
    unfold votesOnFile at hFile
    split at hFile
    · obtain ⟨map, text, hMap, hText, rfl⟩ := mem_loadDayVotes hFile hRead
      exact h.onFile map hMap voter text hText
    · exact absurd hFile (by simp)

theorem step (h : Genuine s) (call : DayCall) : Genuine (s.step call) := by
  match call with
  | .recordVote voter target w => exact h.recordVote voter target w
  | .advance c => exact h.advance c
  | .restart b => exact h.restart b

end Genuine

theorem genuine_boot (b : DayBoot) : Genuine (boot b) :=
  Genuine.restart ⟨fun _ _ h => absurd h (by simp), fun _ h => absurd h (by simp)⟩ b

theorem restart_current (b : DayBoot) (s : DayNode) :
    (s.restart b).rotation.current = s.rotation.current ↔ s.FindsDay (.restart b) := by
  unfold restart FindsDay
  dsimp only
  cases s.dayOnFile b with
  | none => rfl
  | some day => rfl

/-- An advance never moves the day silently. -/
theorem neverSilent_advance {s : DayNode} (h : Genuine s) (c : DayDawn) :
    s.NeverSilent (.advance c) := by
  have hRotation : (s.advance c).2.rotation = _ := congrArg Prod.snd (advance_rotation c s)
  have hGenuine := h.advance c
  unfold NeverSilent
  rw [step, hRotation]
  rcases QuorumDailyRotation.advance_cases (DayEpoch.fromUnixSecs c.now) (s.dawn c) s.rotation with
    hStays | ⟨hLive, hNew, hForward, hVotes⟩
  · exact .inl hStays
  · refine .inr ⟨⟨c, rfl⟩, ?_, _, Table.keysWhere_nodup _ _, hVotes, fun voter hVoter => ?_⟩
    · exact lt_of_lt_of_eq (DayEpoch.lt_of_not_lt hForward hNew) hLive.symm
    · obtain ⟨day, hLookup, hDay⟩ := Table.mem_keysWhere.mp hVoter
      have hHeld := hGenuine.held voter day (by rw [hRotation]; exact hLookup)
      have hCurrent : day = DayEpoch.fromUnixSecs c.now := by simpa using hDay
      rw [hCurrent, ← hLive] at hHeld
      exact hHeld

/-- **No silent roll.** Over the life of a node, its day moves forward alone, by
an advance alone and after a quorum of votes, exactly when every restart finds
the day that was current. -/
theorem neverSilent_iff (b : DayBoot) (calls : List DayCall) :
    Runs.EveryStep step NeverSilent (boot b) calls ↔
      Runs.EveryStep step FindsDay (boot b) calls := by
  have hStep (s : DayNode) (call : DayCall) (hGenuine : Genuine s) :
      s.NeverSilent call ↔ s.FindsDay call := by
    match call with
    | .advance c => exact iff_of_true (neverSilent_advance hGenuine c) trivial
    | .recordVote voter target w =>
      refine iff_of_true (.inl ?_) trivial
      exact (polled_recordVote voter target w s).current
    | .restart b =>
      rw [← restart_current]
      refine ⟨fun h => ?_, .inl⟩
      rcases h with hStays | ⟨⟨c, hCall⟩, -⟩
      · exact hStays
      · exact absurd hCall (by simp)
  constructor
  · exact Runs.EveryStep.of_invariant (fun s call h => h.step call)
      (fun s call hGenuine => (hStep s call hGenuine).mp) (genuine_boot b)
  · exact Runs.EveryStep.of_invariant (fun s call h => h.step call)
      (fun s call hGenuine => (hStep s call hGenuine).mpr) (genuine_boot b)

/-- The day file is lost, and the restart comes up on the day of the clock. -/
theorem neverSilent_fails :
    ¬ ∀ b calls, Runs.EveryStep step NeverSilent (boot b) calls := by
  intro h
  have hRun := h soloBoot [.restart { soloBoot with now := 1704067200 + 86400, dayRead := false }]
  rcases hRun.1 with hStays | ⟨⟨c, hCall⟩, -⟩
  · exact absurd hStays (by decide +kernel)
  · exact absurd hCall (by simp)

end DayNode

end KeroseneVault
