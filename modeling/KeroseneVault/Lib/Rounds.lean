import KeroseneVault.Lib.Ballot

/-!
# Claims by rounds of acknowledgements

The usual way to run a ballot: a claim takes its owner's vote, then asks the
other voters one by one; each answers whether it had voted before. The round
counts its owner and the answers, and is void once a voter refuses. Claims
are numbered; `rounds n` is the round of claim `n` while it is in flight.

* `Round` — whose claim, on what, who is still to ask, the answers so far;
* `RoundsKept` — rounds may end or skip a voter;
* `roundsView` — the ballot that the rounds for one id show;
* `Numbered` — claim numbers are used once, and a claim returns once.

Main results: what each protocol step does to the ballot of every id —
`Refines.kept`, `Refines.opened`, `Refines.acked`, `Refines.reached`.
-/

namespace Ballot

/-! ## Claim numbers -/

/-- Claims in flight have numbers below `next`, and no claim returned twice or
is still in flight. -/
structure Numbered (live : Nat → Prop) (next : Nat) (returned : List Nat) : Prop where
  live_lt : ∀ n, live n → n < next
  live_new : ∀ n, live n → n ∉ returned
  past : ∀ n ∈ returned, n < next
  once : returned.Nodup

namespace Numbered

variable {live live' : Nat → Prop} {next : Nat} {returned : List Nat}

theorem init (hLive : ∀ n, ¬ live n) : Numbered live 0 [] where
  live_lt n h := absurd h (hLive n)
  live_new n h := absurd h (hLive n)
  past := by simp
  once := List.nodup_nil

theorem mono (h : Numbered live next returned) (hLive : ∀ n, live' n → live n) :
    Numbered live' next returned where
  live_lt n hn := h.live_lt n (hLive n hn)
  live_new n hn := h.live_new n (hLive n hn)
  past := h.past
  once := h.once

/-- A new claim takes the next number. -/
theorem spawn (h : Numbered live next returned) (hLive : ∀ n, live' n → live n ∨ n = next) :
    Numbered live' (next + 1) returned where
  live_lt n hn := by
    rcases hLive n hn with hOld | rfl
    · exact Nat.lt_succ_of_lt (h.live_lt n hOld)
    · exact Nat.lt_succ_self _
  live_new n hn := by
    rcases hLive n hn with hOld | rfl
    · exact h.live_new n hOld
    · exact fun hPast => Nat.lt_irrefl _ (h.past _ hPast)
  past n hn := Nat.lt_succ_of_lt (h.past n hn)
  once := h.once

/-- A claim in flight returns. -/
theorem finish (h : Numbered live next returned) {n : Nat} (hn : live n)
    (hLive : ∀ m, live' m → live m ∧ m ≠ n) : Numbered live' next (n :: returned) where
  live_lt m hm := h.live_lt m (hLive m hm).1
  live_new m hm := by
    rw [List.mem_cons, not_or]
    exact ⟨(hLive m hm).2, h.live_new m (hLive m hm).1⟩
  past m hm := by
    rcases List.mem_cons.mp hm with rfl | hm
    · exact h.live_lt m hn
    · exact h.past m hm
  once := List.nodup_cons.mpr ⟨h.live_new n hn, h.once⟩

end Numbered

/-- A list without repetition whose elements all agree has at most one. -/
theorem length_le_one_of_agree {α : Type*} {l : List α} {f : α → Nat} (hOnce : (l.map f).Nodup)
    (hAgree : ∀ x ∈ l, ∀ y ∈ l, f x = f y) : l.length ≤ 1 := by
  match l with
  | [] => simp
  | [_] => simp
  | x :: y :: rest =>
    have hEq := hAgree x (by simp) y (by simp)
    simp [hEq] at hOnce

/-! ## Rounds -/

/-- A claim past its owner's vote. `seen` holds, for each voter that
answered, whether it had voted before. -/
structure Round (ι κ : Type*) where
  owner : ι
  id : κ
  todo : List ι
  seen : List Bool

/-- The rounds in flight, by claim number. -/
abbrev Rounds (ι κ : Type*) := Nat → Option (Round ι κ)

variable {ι κ : Type*} {rounds rounds' : Rounds ι κ}

/-- No round is new; a round may have skipped a voter. -/
def RoundsKept (rounds rounds' : Rounds ι κ) : Prop :=
  ∀ n r, rounds' n = some r →
    ∃ todo, rounds n = some { r with todo := todo } ∧
      (todo = r.todo ∨ ∃ p, todo = p :: r.todo)

theorem RoundsKept.refl (rounds : Rounds ι κ) : RoundsKept rounds rounds :=
  fun _ r h => ⟨r.todo, h, Or.inl rfl⟩

theorem RoundsKept.of_imp (h : ∀ n r, rounds' n = some r → rounds n = some r) :
    RoundsKept rounds rounds' :=
  fun n r hr => ⟨r.todo, h n r hr, Or.inl rfl⟩

/-! ## What a round counts -/

variable [DecidableEq ι] [DecidableEq κ]

/-- The votes a round for `id` counts: its owner's and the answers, unless a
voter refused. -/
def Round.grants (id : κ) (r : Round ι κ) : Nat :=
  if r.id = id ∧ true ∉ r.seen then r.seen.length + 1 else 0

/-- The votes claim `claim.2` of `claim.1` counts while its round is in flight. -/
def gatheredBy (id : κ) (rounds : Rounds ι κ) (claim : ι × Nat) : Nat :=
  match rounds claim.2 with
  | some r => if r.owner = claim.1 then r.grants id else 0
  | none => 0

theorem gatheredBy_of_round {id : κ} {claim : ι × Nat} {r : Round ι κ}
    (h : rounds claim.2 = some r) :
    gatheredBy id rounds claim = if r.owner = claim.1 then r.grants id else 0 := by
  unfold gatheredBy
  rw [h]

theorem gatheredBy_congr {id : κ} {claim : ι × Nat} (h : rounds' claim.2 = rounds claim.2) :
    gatheredBy id rounds' claim = gatheredBy id rounds claim := by
  unfold gatheredBy
  rw [h]

/-- A round that is kept counts what it counted, one that ended nothing. -/
theorem gatheredBy_le_of_kept {id : κ} (h : RoundsKept rounds rounds') (claim : ι × Nat) :
    gatheredBy id rounds' claim ≤ gatheredBy id rounds claim := by
  cases hRound : rounds' claim.2 with
  | none =>
    unfold gatheredBy
    rw [hRound]
    exact Nat.zero_le _
  | some r =>
    obtain ⟨todo, hOld, -⟩ := h _ r hRound
    rw [gatheredBy_of_round hRound, gatheredBy_of_round hOld]
    exact Nat.le_refl _

/-- An answer adds one vote to its round if it grants. -/
theorem gatheredBy_acked_le {id : κ} {n : Nat} {r : Round ι κ} {todo : List ι} {seen : Bool}
    (hRound : rounds n = some r)
    (hSelf : rounds' n = some { r with todo := todo, seen := r.seen ++ [seen] }) (i : ι) :
    gatheredBy id rounds' (i, n) ≤ gatheredBy id rounds (i, n) +
      if r.id = id ∧ seen = false ∧ r.owner = i then 1 else 0 := by
  rw [gatheredBy_of_round hSelf, gatheredBy_of_round hRound]
  by_cases hi : r.owner = i
  · rw [if_pos hi, if_pos hi]
    unfold Round.grants
    -- the answer counts only for the id and where the voter had not voted
    by_cases hGrant : r.id = id ∧ seen = false
    · obtain ⟨hId, rfl⟩ := hGrant
      by_cases hClean : true ∈ r.seen
      · simp [hClean]
      · simp [hClean, hId, hi]
    · rw [if_neg]
      · exact Nat.zero_le _
      · -- a refusal just heard voids the whole round
        rintro ⟨hId, hClean⟩
        refine hGrant ⟨hId, ?_⟩
        cases seen with
        | false => rfl
        | true => exact absurd (List.mem_append_right _ (List.mem_singleton_self _)) hClean
  · rw [if_neg hi]
    exact Nat.zero_le _

/-! ## The ballot behind one id -/

/-- The ballot that the rounds for `id` show: `taken i` says that voter `i`
votes for `id` no more. -/
def roundsView (id : κ) (taken : ι → Prop) (won : ι × Nat → Prop) (rounds : Rounds ι κ) :
    View ι (ι × Nat) where
  taken := taken
  gathered := gatheredBy id rounds
  won := won

namespace Refines

variable {t : Nat} {id : κ} {taken taken' : ι → Prop} {won : ι × Nat → Prop}

/-- Where rounds only end or skip a voter the ballot stands still. -/
theorem kept (h : Refines t (roundsView id taken won rounds)) (hTaken : ∀ i, taken i → taken' i)
    (hRounds : RoundsKept rounds rounds') : Refines t (roundsView id taken' won rounds') :=
  h.mono hTaken (gatheredBy_le_of_kept hRounds) fun _ hc => hc

/-- Opening a round is its owner's vote. -/
theorem opened (h : Refines t (roundsView id taken won rounds)) {n : Nat} {i : ι} {id' : κ}
    {todo : List ι} (hTaken : ∀ i, taken i → taken' i)
    (hVote : id' = id → ¬ taken i ∧ taken' i) (hSelf : rounds' n = some ⟨i, id', todo, []⟩)
    (hOther : ∀ m, m ≠ n → rounds' m = rounds m) :
    Refines t (roundsView id taken' won rounds') := by
  have hRest : ∀ j m, m ≠ n → gatheredBy id rounds' (j, m) ≤ gatheredBy id rounds (j, m) :=
    fun j m hm => (gatheredBy_congr (hOther m hm)).le
  -- for another id nothing is voted and nothing gathered
  by_cases hId : id' = id
  · obtain ⟨hFree, hTook⟩ := hVote hId
    refine h.grant (i := i) (c := (i, n)) hFree ?_ ?_ ?_ fun _ hd => hd
    · rintro j (hj | rfl)
      · exact hTaken j hj
      · exact hTook
    · -- the new round counts its owner only
      show gatheredBy id rounds' (i, n) ≤ _
      rw [gatheredBy_of_round hSelf]
      simp [Round.grants, hId]
    · rintro ⟨j, m⟩ hd
      by_cases hm : m = n
      · subst hm
        show gatheredBy id rounds' (j, m) ≤ _
        rw [gatheredBy_of_round hSelf, if_neg]
        · exact Nat.zero_le _
        · rintro rfl
          exact hd rfl
      · exact hRest j m hm
  · -- a round for another id counts nothing here
    refine h.mono hTaken ?_ fun _ hd => hd
    rintro ⟨j, m⟩
    by_cases hm : m = n
    · subst hm
      show gatheredBy id rounds' (j, m) ≤ _
      rw [gatheredBy_of_round hSelf]
      simp [Round.grants, hId]
    · exact hRest j m hm

/-- An answer that grants is the voter's vote; a refusal voids the round. -/
theorem acked (h : Refines t (roundsView id taken won rounds)) {n : Nat} {p : ι} {r : Round ι κ}
    {todo : List ι} {seen : Bool} (hTaken : ∀ i, taken i → taken' i)
    (hRound : rounds n = some r) (hVote : r.id = id → seen = false → ¬ taken p ∧ taken' p)
    (hSelf : rounds' n = some { r with todo := todo, seen := r.seen ++ [seen] })
    (hOther : ∀ m, m ≠ n → rounds' m = rounds m) :
    Refines t (roundsView id taken' won rounds') := by
  have hCount : ∀ i, gatheredBy id rounds' (i, n) ≤ gatheredBy id rounds (i, n) +
      if r.id = id ∧ seen = false ∧ r.owner = i then 1 else 0 := gatheredBy_acked_le hRound hSelf
  have hRest : ∀ j m, m ≠ n → gatheredBy id rounds' (j, m) ≤ gatheredBy id rounds (j, m) :=
    fun j m hm => (gatheredBy_congr (hOther m hm)).le
  -- a granted answer is a vote of its voter; any other leaves the ballot
  by_cases hGrant : r.id = id ∧ seen = false
  · obtain ⟨hFree, hTook⟩ := hVote hGrant.1 hGrant.2
    refine h.grant (i := p) (c := (r.owner, n)) hFree ?_ ?_ ?_ fun _ hd => hd
    · rintro j (hj | rfl)
      · exact hTaken j hj
      · exact hTook
    · refine (hCount r.owner).trans ?_
      split <;> simp [roundsView]
    · rintro ⟨j, m⟩ hd
      by_cases hm : m = n
      · -- no other owner's claim has this number in flight
        subst hm
        refine (hCount j).trans ?_
        rw [if_neg]
        · exact Nat.le_refl _
        · rintro ⟨-, -, rfl⟩
          exact hd rfl
      · exact hRest j m hm
  · refine h.mono hTaken ?_ fun _ hd => hd
    rintro ⟨j, m⟩
    by_cases hm : m = n
    · subst hm
      refine (hCount j).trans ?_
      rw [if_neg fun hAll => hGrant ⟨hAll.1, hAll.2.1⟩]
      exact Nat.le_refl _
    · exact hRest j m hm

/-- A round without a refusal whose owner and answers reach `t` wins. -/
theorem reached (h : Refines t (roundsView id taken won rounds)) {n : Nat} {r : Round ι κ}
    (hTaken : ∀ i, taken i → taken' i) (hRounds : RoundsKept rounds rounds')
    (hRound : rounds n = some r) (hId : r.id = id) (hClean : true ∉ r.seen)
    (hQuorum : t ≤ r.seen.length + 1) :
    Refines t (roundsView id taken' (fun d => won d ∨ d = (r.owner, n)) rounds') := by
  refine h.win (c := (r.owner, n)) ?_ hTaken (gatheredBy_le_of_kept hRounds) fun _ hd => hd
  show t ≤ gatheredBy id rounds (r.owner, n)
  rw [gatheredBy_of_round hRound, if_pos rfl, Round.grants, if_pos ⟨hId, hClean⟩]
  exact hQuorum

end Refines

end Ballot
