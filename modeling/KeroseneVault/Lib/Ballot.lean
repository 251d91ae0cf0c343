import Mathlib.Data.Finset.Card
import Mathlib.Data.Fintype.Card
import Mathlib.Logic.Function.Basic
import Mathlib.Logic.Relation

/-!
# Ballots: voters who vote once, claims that win with a quorum

The purpose of a one-shot claim protocol, without its messages: every voter
gives its vote to at most one claim and never takes it back, and a claim wins
only when it has gathered `t` voters. With `2 * t` above the number of voters
two winning claims share a voter, so there is at most one.

* `Ballot` — each voter's vote, the voters each claim has gathered, the
  claims that won;
* `Step` — a voter casts its vote, a claim wins;
* `Sound` — the invariant: gathered voters did vote for the claim, and a
  winner gathered a quorum.

* `View` — what a running protocol shows of a ballot: who grants no more, how
  many grants a live claim counts, which claims won;
* `Refines` — some sound ballot stands behind the view.

Main results:

* `Sound.steps` — every run of the ballot keeps `Sound`;
* `Sound.winner_unique` — at most one claim wins;
* `Refines.mono`, `Refines.grant`, `Refines.win` — the moves a protocol may
  show: it forgets, one voter grants one claim, a claim with a quorum wins;
* `Refines.winner_unique` — at most one claim wins in the protocol.
-/

/-- The state of one ballot among the voters `ι` for the claims `τ`. -/
structure Ballot (ι τ : Type*) where
  vote : ι → Option τ
  gathered : τ → Finset ι
  won : τ → Prop

namespace Ballot

variable {ι τ : Type*}

/-- No votes, no winner. -/
def init : Ballot ι τ := ⟨fun _ => none, fun _ => ∅, fun _ => False⟩

/-- Claim `c` wins. -/
def win (b : Ballot ι τ) (c : τ) : Ballot ι τ := { b with won := fun d => d = c ∨ b.won d }

@[simp] theorem win_vote (b : Ballot ι τ) (c : τ) : (b.win c).vote = b.vote := rfl

@[simp] theorem win_gathered (b : Ballot ι τ) (c : τ) : (b.win c).gathered = b.gathered := rfl

theorem win_won_self (b : Ballot ι τ) (c : τ) : (b.win c).won c := Or.inl rfl

theorem win_won_of_won {b : Ballot ι τ} {d : τ} (h : b.won d) (c : τ) : (b.win c).won d :=
  Or.inr h

/-- Gathered voters voted for the claim that gathered them, and a winner
gathered a quorum. -/
structure Sound (t : Nat) (b : Ballot ι τ) : Prop where
  gathered_voted : ∀ c, ∀ i ∈ b.gathered c, b.vote i = some c
  won_quorum : ∀ c, b.won c → t ≤ (b.gathered c).card

theorem sound_init (t : Nat) : Sound t (init : Ballot ι τ) where
  gathered_voted := by intro c i hi; simp [init] at hi
  won_quorum := by intro c hc; exact absurd hc id

/-- A voter that has not voted is gathered by no claim. -/
theorem Sound.not_gathered {t : Nat} {b : Ballot ι τ} (hb : Sound t b) {i : ι}
    (hFree : b.vote i = none) (c : τ) : i ∉ b.gathered c := by
  intro hi
  rw [hb.gathered_voted c i hi] at hFree
  cases hFree

theorem Sound.win {t : Nat} {b : Ballot ι τ} (hb : Sound t b) {c : τ}
    (hQuorum : t ≤ (b.gathered c).card) : Sound t (b.win c) where
  gathered_voted := hb.gathered_voted
  won_quorum := by
    rintro d (rfl | hd)
    · exact hQuorum
    · exact hb.won_quorum d hd

/-! ## Casting votes -/

variable [DecidableEq ι] [DecidableEq τ]

/-- Voter `i` gives its vote to claim `c`. -/
def cast (b : Ballot ι τ) (i : ι) (c : τ) : Ballot ι τ :=
  { b with
    vote := Function.update b.vote i (some c)
    gathered := Function.update b.gathered c (insert i (b.gathered c)) }

/-- One move: a voter that has not voted casts its vote, or a claim that has
gathered `t` voters wins. -/
inductive Step (t : Nat) : Ballot ι τ → Ballot ι τ → Prop
  | cast (b : Ballot ι τ) (i : ι) (c : τ) (hFree : b.vote i = none) : Step t b (b.cast i c)
  | win (b : Ballot ι τ) (c : τ) (hQuorum : t ≤ (b.gathered c).card) : Step t b (b.win c)

/-- Any number of moves. -/
abbrev Steps (t : Nat) : Ballot ι τ → Ballot ι τ → Prop := Relation.ReflTransGen (Step t)

/-! ## What a move changes -/

@[simp] theorem cast_vote_self (b : Ballot ι τ) (i : ι) (c : τ) :
    (b.cast i c).vote i = some c := by
  simp [cast]

theorem cast_vote_ne (b : Ballot ι τ) {i j : ι} (c : τ) (h : j ≠ i) :
    (b.cast i c).vote j = b.vote j := by
  simp [cast, h]

@[simp] theorem cast_gathered_self (b : Ballot ι τ) (i : ι) (c : τ) :
    (b.cast i c).gathered c = insert i (b.gathered c) := by
  simp [cast]

theorem cast_gathered_ne (b : Ballot ι τ) (i : ι) {c d : τ} (h : d ≠ c) :
    (b.cast i c).gathered d = b.gathered d := by
  simp [cast, h]

@[simp] theorem cast_won (b : Ballot ι τ) (i : ι) (c : τ) : (b.cast i c).won = b.won := rfl

/-- A voter that has not voted may vote for any claim: it was gathered by none, so that the
voters of the other claims are still theirs. -/
theorem Sound.cast {t : Nat} {b : Ballot ι τ} (hb : Sound t b) {i : ι}
    (hFree : b.vote i = none) (c : τ) : Sound t (b.cast i c) where
  gathered_voted := by
    intro d j hj
    by_cases hji : j = i
    · subst hji
      by_cases hd : d = c
      · rw [hd, cast_vote_self]
      · -- the new voter had voted for no other claim
        rw [cast_gathered_ne b j hd] at hj
        exact absurd hj (hb.not_gathered hFree d)
    · rw [cast_vote_ne b c hji]
      by_cases hd : d = c
      · subst hd
        rw [cast_gathered_self, Finset.mem_insert] at hj
        exact hb.gathered_voted d j (hj.resolve_left hji)
      · rw [cast_gathered_ne b i hd] at hj
        exact hb.gathered_voted d j hj
  won_quorum := by
    intro d hd
    -- a winner only gains voters
    have hOld := hb.won_quorum d hd
    by_cases hdc : d = c
    · subst hdc
      rw [cast_gathered_self]
      exact hOld.trans (Finset.card_le_card (Finset.subset_insert ..))
    · rwa [cast_gathered_ne b i hdc]

theorem Sound.step {t : Nat} {b b' : Ballot ι τ} (hb : Sound t b) (h : Step t b b') :
    Sound t b' := by
  cases h with
  | cast i c hFree => exact hb.cast hFree c
  | win c hQuorum => exact hb.win hQuorum

/-- Every run of the ballot keeps the invariant. -/
theorem Sound.steps {t : Nat} {b b' : Ballot ι τ} (hb : Sound t b) (h : Steps t b b') :
    Sound t b' := by
  induction h with
  | refl => exact hb
  | tail _ hStep ih => exact ih.step hStep

/-- A vote adds one to what its claim has gathered. -/
theorem Sound.card_gathered_cast {t : Nat} {b : Ballot ι τ} (hb : Sound t b) {i : ι}
    (hFree : b.vote i = none) (c : τ) :
    ((b.cast i c).gathered c).card = (b.gathered c).card + 1 := by
  rw [cast_gathered_self, Finset.card_insert_of_notMem (hb.not_gathered hFree c)]

omit [DecidableEq τ] in
/-- **At most one claim wins** when two quorums cannot be disjoint. -/
theorem Sound.winner_unique [Fintype ι] {t : Nat} {b : Ballot ι τ} (hb : Sound t b)
    (ht : Fintype.card ι < 2 * t) {c d : τ} (hc : b.won c) (hd : b.won d) : c = d := by
  have hCard : (Finset.univ : Finset ι).card < (b.gathered c).card + (b.gathered d).card := by
    rw [Finset.card_univ]
    have hcq := hb.won_quorum c hc
    have hdq := hb.won_quorum d hd
    omega
  obtain ⟨i, hi⟩ := Finset.inter_nonempty_of_card_lt_card_add_card
    (Finset.subset_univ _) (Finset.subset_univ _) hCard
  rw [Finset.mem_inter] at hi
  -- the shared voter voted once
  have hVote := hb.gathered_voted c i hi.1
  rw [hb.gathered_voted d i hi.2] at hVote
  exact (Option.some.inj hVote).symm

/-! ## Views -/

/-- What a running protocol shows of a ballot. `gathered c` counts the grants
of a claim that is still in flight and unrefused; it may fall back to 0. -/
structure View (ι τ : Type*) where
  taken : ι → Prop
  gathered : τ → Nat
  won : τ → Prop

/-- Some ballot reached by casting and winning stands behind the view: who
voted grants no more, a count is backed by gathered voters, a winner won. -/
def Refines (t : Nat) (v : View ι τ) : Prop :=
  ∃ b : Ballot ι τ, Steps t init b ∧ (∀ i, b.vote i ≠ none → v.taken i) ∧
    (∀ c, v.gathered c ≤ (b.gathered c).card) ∧ ∀ c, v.won c → b.won c

namespace Refines

variable {t : Nat} {v v' : View ι τ}

theorem of_init (hGathered : ∀ c, v.gathered c = 0) (hWon : ∀ c, ¬ v.won c) :
    Refines t v :=
  ⟨init, Relation.ReflTransGen.refl, fun _ hi => absurd rfl hi, fun c => by simp [hGathered c],
    fun c hc => absurd hc (hWon c)⟩

/-- The protocol may forget counts and lose voters that never voted. -/
theorem mono (h : Refines t v) (hTaken : ∀ i, v.taken i → v'.taken i)
    (hGathered : ∀ c, v'.gathered c ≤ v.gathered c) (hWon : ∀ c, v'.won c → v.won c) :
    Refines t v' := by
  obtain ⟨b, hSteps, hVote, hCount, hWin⟩ := h
  exact ⟨b, hSteps, fun i hi => hTaken i (hVote i hi),
    fun c => (hGathered c).trans (hCount c), fun c hc => hWin c (hWon c hc)⟩

/-- A voter that can still grant gives its vote to one claim. -/
theorem grant (h : Refines t v) {i : ι} {c : τ} (hFree : ¬ v.taken i)
    (hTaken : ∀ j, v.taken j ∨ j = i → v'.taken j)
    (hSelf : v'.gathered c ≤ v.gathered c + 1)
    (hGathered : ∀ d, d ≠ c → v'.gathered d ≤ v.gathered d)
    (hWon : ∀ d, v'.won d → v.won d) : Refines t v' := by
  obtain ⟨b, hSteps, hVote, hCount, hWin⟩ := h
  have hSound := (sound_init t).steps hSteps
  -- a voter that can still grant has no vote in the ballot either
  have hNone : b.vote i = none := by
    by_contra hSome
    exact hFree (hVote i hSome)
  refine ⟨b.cast i c, hSteps.tail (Step.cast b i c hNone), ?_, ?_, fun d hd => hWin d (hWon d hd)⟩
  · intro j hj
    by_cases hji : j = i
    · exact hTaken j (Or.inr hji)
    · rw [cast_vote_ne b c hji] at hj
      exact hTaken j (Or.inl (hVote j hj))
  · intro d
    by_cases hd : d = c
    · subst hd
      rw [hSound.card_gathered_cast hNone]
      exact hSelf.trans (Nat.add_le_add_right (hCount d) 1)
    · rw [cast_gathered_ne b i hd]
      exact (hGathered d hd).trans (hCount d)

/-- A claim that counts a quorum wins. -/
theorem win (h : Refines t v) {c : τ} (hQuorum : t ≤ v.gathered c)
    (hTaken : ∀ i, v.taken i → v'.taken i)
    (hGathered : ∀ d, v'.gathered d ≤ v.gathered d)
    (hWon : ∀ d, v'.won d → v.won d ∨ d = c) : Refines t v' := by
  obtain ⟨b, hSteps, hVote, hCount, hWin⟩ := h
  refine ⟨b.win c, hSteps.tail (Step.win b c (hQuorum.trans (hCount c))),
    fun i hi => hTaken i (hVote i hi), fun d => (hGathered d).trans (hCount d), ?_⟩
  intro d hd
  rcases hWon d hd with hd | rfl
  · exact win_won_of_won (hWin d hd) c
  · exact b.win_won_self d

/-- **At most one claim wins in the protocol.** -/
theorem winner_unique [Fintype ι] (h : Refines t v) (ht : Fintype.card ι < 2 * t)
    {c d : τ} (hc : v.won c) (hd : v.won d) : c = d := by
  obtain ⟨b, hSteps, -, -, hWin⟩ := h
  exact ((sound_init t).steps hSteps).winner_unique ht (hWin c hc) (hWin d hd)

end Refines

end Ballot
