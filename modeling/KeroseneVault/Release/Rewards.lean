import KeroseneVault.Release.Evidence
import Mathlib.Data.Finset.Card

/-!
# Rewards of release work

A cosign and an activation pay a bounty through the governance hook each time
they go through. Neither asks whether it went through before: a vault that
cosigns again is in the set already and is paid again, and a release that is
listed is activated again, paid again and listed under the new time.

* `cosigned`, `activated` — what went through;
* `cosignReward`, `activationReward` — what was paid for it;
* `RewardedOnce` — at most one reward for each, and one time of activation;
* `Late` — the calls that are paid twice.

Main results:

* `step_economy` — the economy changes exactly where a reward is paid;
* `rewardedOnce_of_timely` — a run without such calls is rewarded once.
-/

namespace KeroseneVault

/-- When the release was activated. -/
def ReleaseMeshState.activatedAt (m : ReleaseMeshState) (id : String) : Option U64 :=
  (m.allowlist.find? fun e => e.releaseId = id).map AllowlistEntry.activatedAtSecs

@[simp] theorem ReleaseMeshState.activatedAt_setCandidate (m : ReleaseMeshState) (id j : String)
    (c : ReleaseCandidate) : (m.setCandidate id c).activatedAt j = m.activatedAt j := rfl

/-- An entry that is put is the one of its release. -/
theorem ReleaseMeshState.activatedAt_putAllowlist (m : ReleaseMeshState) (entry : AllowlistEntry)
    (id : String) : (m.putAllowlist entry).activatedAt id =
      if id = entry.releaseId then some entry.activatedAtSecs else m.activatedAt id := by
  unfold activatedAt putAllowlist
  dsimp only
  rw [List.find?_append]
  by_cases hId : id = entry.releaseId
  · -- what was there under the id is gone
    have hNone : (m.allowlist.filter fun e => e.releaseId ≠ entry.releaseId).find?
        (fun e => e.releaseId = id) = none := by
      rw [List.find?_eq_none]
      intro e he
      have hOther := of_decide_eq_true (List.mem_filter.mp he).2
      simpa [hId] using hOther
    rw [hNone, if_pos hId]
    simp [hId]
  · have hSame : (m.allowlist.filter fun e => e.releaseId ≠ entry.releaseId).find?
        (fun e => e.releaseId = id) = m.allowlist.find? fun e => e.releaseId = id := by
      rw [List.find?_filter]
      congr 1
      funext e
      by_cases he : e.releaseId = id
      · simp [he, hId]
      · simp [he]
    rw [hSame, if_neg hId, List.find?_singleton, if_neg (by simpa using Ne.symm hId), Option.or_none]

namespace ReleaseNode

/-! ## What goes through, and what is paid -/

/-- The cosign that went through, as the release and the vault. -/
def cosigned (s : ReleaseNode) : ReleaseOp → Option (String × String)
  | .cosign localNode id now _ =>
    match CosignRelease.store s.ledger.constitution localNode id now s.mesh with
    | (.ok _, _) => some (id, localNode.text)
    | (.error _, _) => none
  | _ => none

/-- The release whose activation went through. -/
def activated (s : ReleaseNode) : ReleaseOp → Option String
  | .activate id checkedAt activatedAt _ =>
    match ActivateRelease.store s.ledger.constitution id checkedAt activatedAt s.mesh with
    | (.ok _, _) => some id
    | (.error _, _) => none
  | _ => none

/-- A job is paid for: there is a hook, and the bounty is not nothing. -/
def Pays (w : ReleaseWiring) (s : ReleaseNode) : Prop :=
  ∃ gov ∈ w.governance, gov.config.isEnabled = true ∧
    gov.config.bountySats s.economy.minerPoolSats ≠ 0

instance decidablePays (w : ReleaseWiring) (s : ReleaseNode) : Decidable (s.Pays w) :=
  decidable_of_iff (w.governance.any (fun gov => gov.config.isEnabled &&
    decide (gov.config.bountySats s.economy.minerPoolSats ≠ 0)) = true) (by
      cases h : w.governance <;> simp [Pays, h])

/-- The cosign that was paid for. -/
def cosignReward (w : ReleaseWiring) (s : ReleaseNode) (op : ReleaseOp) :
    Option (String × String) :=
  if s.Pays w then s.cosigned op else none

/-- The activation that was paid for. -/
def activationReward (w : ReleaseWiring) (s : ReleaseNode) (op : ReleaseOp) : Option String :=
  if s.Pays w then s.activated op else none

/-! ### The economy -/

section Economy

variable (w : ReleaseWiring) (s : ReleaseNode) (economyWrite : Outcome) (job : GovernanceJobKind)
  (participants : List NodeId) (context : String)

theorem reward_economy_of_hook {gov : AccrueGovernanceWork} (h : w.governance = some gov) :
    (s.reward w economyWrite job participants context).2.economy =
      if gov.config.isEnabled then (s.economy.accrueGovernanceJob job participants gov.config).2
      else s.economy := by
  rw [← gov.execute_economy (measureText w.sha256) economyWrite job participants context s.economy
    s.ledger]
  unfold reward
  rw [h]
  dsimp only
  split
  · rename_i hEq
    rw [hEq]
  · rename_i hEq
    rw [hEq]

/-- The hook accrues the job where it pays, and does nothing to the economy elsewhere. -/
theorem reward_economy :
    ¬ s.Pays w ∧ (s.reward w economyWrite job participants context).2.economy = s.economy ∨
    s.Pays w ∧ ∃ gov ∈ w.governance,
      (s.reward w economyWrite job participants context).2.economy =
        (s.economy.accrueGovernanceJob job participants gov.config).2 := by
  by_cases hPays : s.Pays w
  · obtain ⟨gov, hGov, hEnabled, -⟩ := id hPays
    refine .inr ⟨hPays, gov, hGov, ?_⟩
    rw [reward_economy_of_hook w s economyWrite job participants context hGov, if_pos hEnabled]
  · refine .inl ⟨hPays, ?_⟩
    cases hGov : w.governance with
    | none =>
      unfold reward
      rw [hGov]
    | some gov =>
      rw [reward_economy_of_hook w s economyWrite job participants context hGov]
      by_cases hEnabled : gov.config.isEnabled = true
      · have hBounty : gov.config.bountySats s.economy.minerPoolSats = 0 := by
          by_contra hNe
          exact hPays ⟨gov, hGov, hEnabled, hNe⟩
        rw [if_pos hEnabled]
        unfold EconomyPools.accrueGovernanceJob
        rw [if_pos hBounty]
      · rw [if_neg hEnabled]

/-- The economy changes where a reward is paid, by its accrual, and nowhere else. -/
theorem step_economy (op : ReleaseOp) :
    (s.step w op).economy = s.economy ∧ s.cosignReward w op = none ∧
      s.activationReward w op = none ∨
    ∃ gov ∈ w.governance, ∃ participants,
      (s.cosignReward w op).isSome ∧ (s.step w op).economy =
        (s.economy.accrueGovernanceJob .releaseCosign participants gov.config).2 ∨
      (s.activationReward w op).isSome ∧ (s.step w op).economy =
        (s.economy.accrueGovernanceJob .releaseActivate participants gov.config).2 := by
  cases op with
  | propose => exact .inl ⟨rfl, ite_self none, ite_self none⟩
  | proposeWithHashes => exact .inl ⟨rfl, ite_self none, ite_self none⟩
  | rebuild => exact .inl ⟨rfl, ite_self none, ite_self none⟩
  | cosign localNode id now economyWrite =>
    have hNone : s.activationReward w (.cosign localNode id now economyWrite) = none :=
      ite_self none
    have hStep : s.step w (.cosign localNode id now economyWrite) =
      (CosignRelease.execute w localNode id now economyWrite s).2 := rfl
    unfold CosignRelease.execute at hStep
    unfold cosignReward cosigned
    dsimp only
    rcases hStore : CosignRelease.store s.ledger.constitution localNode id now s.mesh with ⟨e | c, mesh⟩
    · rw [hStep, hStore]
      exact .inl ⟨rfl, ite_self none, hNone⟩
    · rw [hStep, hStore]
      -- the candidate is in the mesh: what is left is whether the rewards are on
      rcases reward_economy w { s with mesh } economyWrite .releaseCosign [localNode] id with
        ⟨hPays, hEconomy⟩ | ⟨hPays, gov, hGov, hEconomy⟩
      · exact .inl ⟨hEconomy, if_neg hPays, hNone⟩
      · refine .inr ⟨gov, hGov, [localNode], .inl ⟨?_, hEconomy⟩⟩
        rw [if_pos (show s.Pays w from hPays)]
        rfl
  | activate id checkedAt activatedAt economyWrite =>
    have hNone : s.cosignReward w (.activate id checkedAt activatedAt economyWrite) = none :=
      ite_self none
    have hStep : s.step w (.activate id checkedAt activatedAt economyWrite) =
      (ActivateRelease.execute w id checkedAt activatedAt economyWrite s).2 := rfl
    unfold ActivateRelease.execute at hStep
    unfold activationReward activated
    dsimp only
    rcases hStore : ActivateRelease.store s.ledger.constitution id checkedAt activatedAt s.mesh with
      ⟨e | ⟨candidate, entry⟩, mesh⟩
    · rw [hStep, hStore]
      exact .inl ⟨rfl, hNone, ite_self none⟩
    · rw [hStep, hStore]
      rcases reward_economy w { s with mesh } economyWrite .releaseActivate
        (ActivateRelease.cosigners candidate) id with
        ⟨hPays, hEconomy⟩ | ⟨hPays, gov, hGov, hEconomy⟩
      · exact .inl ⟨hEconomy, hNone, if_neg hPays⟩
      · refine .inr ⟨gov, hGov, ActivateRelease.cosigners candidate, .inr ⟨?_, hEconomy⟩⟩
        rw [if_pos (show s.Pays w from hPays)]
        rfl

end Economy

/-! ## Calls that are paid again -/

/-- A paid cosign of a vault that is among the cosigners, or an activation of a
release that is listed: the calls that go through a second time. -/
def Late (w : ReleaseWiring) (s : ReleaseNode) : ReleaseOp → Prop
  | .cosign localNode id now _ => s.Pays w ∧ ∃ c ∈ s.mesh.candidates.lookup id,
    localNode.text ∈ c.cosigns.keys ∧ ¬ c.phase.Closed ∧
    c.predicatesOk s.mesh.policy now s.ledger.constitution.hash = .ok ()
  | .activate id checkedAt _ _ => ∃ c ∈ s.mesh.candidates.lookup id, c.phase = .allowlisted ∧
    c.predicatesOk s.mesh.policy checkedAt s.ledger.constitution.hash = .ok () ∧
    s.mesh.policy.vaultCosignQuorum ≤ c.cosigns.size
  | _ => False

instance decidableLate (w : ReleaseWiring) (s : ReleaseNode) : ∀ op, Decidable (s.Late w op)
  | .cosign localNode id now _ => inferInstanceAs (Decidable (s.Pays w ∧
    ∃ c ∈ s.mesh.candidates.lookup id, localNode.text ∈ c.cosigns.keys ∧ ¬ c.phase.Closed ∧
      c.predicatesOk s.mesh.policy now s.ledger.constitution.hash = .ok ()))
  | .activate id checkedAt _ _ => inferInstanceAs (Decidable
    (∃ c ∈ s.mesh.candidates.lookup id, c.phase = .allowlisted ∧
      c.predicatesOk s.mesh.policy checkedAt s.ledger.constitution.hash = .ok () ∧
      s.mesh.policy.vaultCosignQuorum ≤ c.cosigns.size))
  | .propose .. => isFalse id
  | .proposeWithHashes .. => isFalse id
  | .rebuild .. => isFalse id

def Timely (w : ReleaseWiring) (s : ReleaseNode) (op : ReleaseOp) : Prop := ¬ s.Late w op

instance decidableTimely (w : ReleaseWiring) (s : ReleaseNode) (op : ReleaseOp) :
    Decidable (s.Timely w op) :=
  inferInstanceAs (Decidable (¬ _))

/-- Over the calls: no more paid cosigns than vaults that cosigned a release, no
release activated or paid for twice, and none whose time of activation changes. -/
structure RewardedOnce (w : ReleaseWiring) (s : ReleaseNode) (ops : List ReleaseOp) : Prop where
  cosigns : (Runs.emits (step w) (cosignReward w) s ops).length ≤
    (Runs.emits (step w) cosigned s ops).toFinset.card
  activations : (Runs.emits (step w) activated s ops).Nodup
  rewards : (Runs.emits (step w) (activationReward w) s ops).Nodup
  activatedAt : ∀ pre post id t, pre ++ post = ops →
    (Runs.run (step w) s pre).mesh.activatedAt id = some t →
    (Runs.run (step w) s ops).mesh.activatedAt id = some t

section Steps

variable {w : ReleaseWiring} {s : ReleaseNode} {op : ReleaseOp}

/-- A cosign that goes through, and what it found. -/
theorem cosigned_eq_some (w : ReleaseWiring) (hKeyed : s.mesh.Keyed) {p : String × String}
    (h : s.cosigned op = some p) : ∃ localNode now economyWrite c,
      op = .cosign localNode p.1 now economyWrite ∧ p.2 = localNode.text ∧
      s.mesh.candidates.lookup p.1 = some c ∧ ¬ c.phase.Closed ∧
      c.predicatesOk s.mesh.policy now s.ledger.constitution.hash = .ok () ∧
      (s.step w op).mesh.candidates.lookup p.1 = some (c.withCosign p.2) := by
  cases op with
  | cosign localNode id now economyWrite =>
    have hMesh := cosign_mesh w s localNode id now economyWrite
    unfold cosigned at h
    dsimp only at h
    rcases CosignRelease.store_cases s.ledger.constitution localNode id now s.mesh (hKeyed id) with
      ⟨e, hEq⟩ | ⟨c, hLookup, hOpen, hPredicates, hEq⟩
    · rw [hEq] at h
      cases h
    · rw [hEq] at h hMesh
      obtain rfl := Option.some.inj h
      refine ⟨localNode, now, economyWrite, c, rfl, rfl, hLookup, hOpen, hPredicates, ?_⟩
      rw [hMesh]
      exact SortedMap.lookup_insert_self ..
  | _ => cases h

theorem activated_eq_some (w : ReleaseWiring) (hKeyed : s.mesh.Keyed) {id : String}
    (h : s.activated op = some id) : ∃ checkedAt activatedAt economyWrite c,
      op = .activate id checkedAt activatedAt economyWrite ∧
      s.mesh.candidates.lookup id = some c ∧
      c.predicatesOk s.mesh.policy checkedAt s.ledger.constitution.hash = .ok () ∧
      s.mesh.policy.vaultCosignQuorum ≤ c.cosigns.size ∧
      (s.step w op).mesh = (s.mesh.setCandidate id c.activated).putAllowlist
        (ActivateRelease.entry s.ledger.constitution activatedAt c) := by
  cases op with
  | activate id checkedAt activatedAt economyWrite =>
    have hMesh := activate_mesh w s id checkedAt activatedAt economyWrite
    unfold activated at h
    dsimp only at h
    rcases ActivateRelease.store_cases s.ledger.constitution id checkedAt activatedAt s.mesh
      (hKeyed id) with ⟨e, hEq⟩ | ⟨c, hLookup, hPredicates, hQuorum, hEq⟩
    · rw [hEq] at h
      cases h
    · rw [hEq] at h hMesh
      obtain rfl := Option.some.inj h
      exact ⟨checkedAt, activatedAt, economyWrite, c, rfl, hLookup, hPredicates, hQuorum, hMesh⟩
  | _ => cases h

/-- Only an activation lists anything. -/
theorem activatedAt_of_not_activated (w : ReleaseWiring) (hKeyed : s.mesh.Keyed)
    (h : s.activated op = none) (id : String) :
    (s.step w op).mesh.activatedAt id = s.mesh.activatedAt id := by
  have hStep := step_mesh w s hKeyed op
  have hAllowlist : (s.step w op).mesh.allowlist = s.mesh.allowlist := by
    cases op with
    | activate id checkedAt activatedAt economyWrite =>
      rw [activate_mesh]
      unfold activated at h
      dsimp only at h
      rcases ActivateRelease.store_cases s.ledger.constitution id checkedAt activatedAt s.mesh
        (hKeyed id) with ⟨e, hEq⟩ | ⟨c, hLookup, hPredicates, hQuorum, hEq⟩
      · rw [hEq]
      · rw [hEq] at h
        cases h
    | propose => exact hStep.allowlist nofun
    | proposeWithHashes => exact hStep.allowlist nofun
    | rebuild => exact hStep.allowlist nofun
    | cosign => exact hStep.allowlist nofun
  unfold ReleaseMeshState.activatedAt
  rw [hAllowlist]

end Steps

/-! ## Runs -/

/-- What holds after a run: the vaults that cosigned are among the cosigners, the
releases that were activated are listed, and nothing went twice. -/
structure Accounted (w : ReleaseWiring) (s : ReleaseNode) (ops : List ReleaseOp) : Prop where
  keyed : (Runs.run (step w) s ops).mesh.Keyed
  cosigned : ∀ p ∈ Runs.emits (step w) cosigned s ops, ∃ c,
    (Runs.run (step w) s ops).mesh.candidates.lookup p.1 = some c ∧ p.2 ∈ c.cosigns.keys
  paid : (Runs.emits (step w) (cosignReward w) s ops).Nodup
  activated : ∀ id ∈ Runs.emits (step w) activated s ops, ∃ c,
    (Runs.run (step w) s ops).mesh.candidates.lookup id = some c ∧ c.phase = .allowlisted
  once : (Runs.emits (step w) ReleaseNode.activated s ops).Nodup
  listed : ∀ id t, (Runs.run (step w) s ops).mesh.activatedAt id = some t →
    id ∈ Runs.emits (step w) ReleaseNode.activated s ops

section Invariant

variable {w : ReleaseWiring} {s : ReleaseNode} {ops : List ReleaseOp} {op : ReleaseOp}

theorem paid_sublist (w : ReleaseWiring) (s : ReleaseNode) (ops : List ReleaseOp) :
    (Runs.emits (step w) (cosignReward w) s ops).Sublist
      (Runs.emits (step w) cosigned s ops) :=
  Runs.emits_sublist (fun s op p h => by
    unfold cosignReward at h
    split at h
    · exact h
    · cases h) s ops

theorem rewards_sublist (w : ReleaseWiring) (s : ReleaseNode) (ops : List ReleaseOp) :
    (Runs.emits (step w) (activationReward w) s ops).Sublist
      (Runs.emits (step w) activated s ops) :=
  Runs.emits_sublist (fun s op id h => by
    unfold activationReward at h
    split at h
    · exact h
    · cases h) s ops

theorem Accounted.nil (w : ReleaseWiring) (policy : ReleasePolicy) (economy : EconomyPools)
    (ledger : GovernanceLedger) : Accounted w (fresh policy economy ledger) [] :=
  ⟨nofun, nofun, List.nodup_nil, nofun, List.nodup_nil, nofun⟩

/-- A paid cosign is none of those before it. -/
theorem Accounted.paid_new (h : Accounted w s ops)
    (hTimely : (Runs.run (step w) s ops).Timely w op) {p : String × String}
    (hPaid : cosignReward w (Runs.run (step w) s ops) op = some p) :
    p ∉ Runs.emits (step w) ReleaseNode.cosigned s ops := by
  intro hBefore
  unfold cosignReward at hPaid
  split at hPaid
  · rename_i hPays
    obtain ⟨localNode, now, economyWrite, c, rfl, hVault, hLookup, hOpen, hPredicates, -⟩ :=
      cosigned_eq_some w h.keyed hPaid
    obtain ⟨d, hFound, hCosigned⟩ := h.cosigned p hBefore
    obtain rfl := Option.some.inj (hLookup.symm.trans hFound)
    exact hTimely ⟨hPays, c, hLookup, hVault ▸ hCosigned, hOpen, hPredicates⟩
  · cases hPaid

/-- An activation is none of those before it. -/
theorem Accounted.activated_new (h : Accounted w s ops)
    (hTimely : (Runs.run (step w) s ops).Timely w op) {id : String}
    (hActivated : (Runs.run (step w) s ops).activated op = some id) :
    id ∉ Runs.emits (step w) ReleaseNode.activated s ops := by
  intro hBefore
  obtain ⟨checkedAt, activatedAt, economyWrite, c, rfl, hLookup, hPredicates, hQuorum, -⟩ :=
    activated_eq_some w h.keyed hActivated
  obtain ⟨d, hFound, hListed⟩ := h.activated id hBefore
  obtain rfl := Option.some.inj (hLookup.symm.trans hFound)
  exact hTimely ⟨c, hLookup, hListed, hPredicates, hQuorum⟩

theorem nodup_concat_toList {β : Type} {l : List β} {o : Option β} (hl : l.Nodup)
    (h : ∀ b, o = some b → b ∉ l) : (l ++ o.toList).Nodup := by
  cases o with
  | none => rwa [Option.toList_none, List.append_nil]
  | some b => exact List.nodup_append_comm.mp (List.nodup_cons.mpr ⟨h b rfl, hl⟩)

/-- One more call is accounted for, unless it is late. -/
theorem Accounted.snoc (h : Accounted w s ops) (hTimely : (Runs.run (step w) s ops).Timely w op) :
    Accounted w s (ops ++ [op]) := by
  have hRun : Runs.run (step w) s (ops ++ [op]) = (Runs.run (step w) s ops).step w op :=
    Runs.run_append ..
  have hStep := step_mesh w (Runs.run (step w) s ops) h.keyed op
  refine ⟨?_, fun p hp => ?_, ?_, fun id hId => ?_, ?_, fun id t hListed => ?_⟩
  · rw [hRun]
    exact hStep.keyed h.keyed
  · rw [Runs.emits_concat, List.mem_append, Option.mem_toList] at hp
    rw [hRun]
    rcases hp with hBefore | hNew
    · -- a cosign paid before stays on its candidate
      obtain ⟨c, hLookup, hCosigned⟩ := h.cosigned p hBefore
      obtain ⟨d, hLater, hGrown⟩ := hStep.grows hLookup
      exact ⟨d, hLater, hGrown.cosigns p.2 hCosigned⟩
    · obtain ⟨_, _, _, c, -, -, -, -, -, hLater⟩ := cosigned_eq_some w h.keyed hNew
      exact ⟨_, hLater, SortedSet.mem_add.mpr (.inl rfl)⟩
  · rw [Runs.emits_concat]
    refine nodup_concat_toList h.paid fun p hPaid hBefore => ?_
    exact h.paid_new hTimely hPaid ((paid_sublist w s ops).subset hBefore)
  · rw [Runs.emits_concat, List.mem_append, Option.mem_toList] at hId
    rw [hRun]
    rcases hId with hBefore | hNew
    · -- an activated candidate stays activated
      obtain ⟨c, hLookup, hPhase⟩ := h.activated id hBefore
      obtain ⟨d, hLater, hGrown⟩ := hStep.grows hLookup
      exact ⟨d, hLater, hGrown.phase hPhase⟩
    · obtain ⟨_, _, _, c, -, -, -, -, hLater⟩ := activated_eq_some w h.keyed hNew
      rw [hLater]
      exact ⟨c.activated, SortedMap.lookup_insert_self .., rfl⟩
  · rw [Runs.emits_concat]
    exact nodup_concat_toList h.once fun id hActivated => h.activated_new hTimely hActivated
  · rw [Runs.emits_concat, List.mem_append, Option.mem_toList]
    rw [hRun] at hListed
    -- only an activation lists a release
    cases hActivated : (Runs.run (step w) s ops).activated op with
    | none =>
      rw [activatedAt_of_not_activated w h.keyed hActivated] at hListed
      exact .inl (h.listed id t hListed)
    | some j =>
      obtain ⟨_, _, _, c, -, hLookup, -, -, hLater⟩ := activated_eq_some w h.keyed hActivated
      rw [hLater, ReleaseMeshState.activatedAt_putAllowlist] at hListed
      split at hListed
      · rename_i hEq
        exact .inr (congrArg some (hEq.trans (h.keyed j c hLookup)).symm)
      · exact .inl (h.listed id t hListed)

/-- Along timely calls, a release keeps its time of activation. -/
theorem Accounted.activatedAt_snoc (h : Accounted w s ops)
    (hTimely : (Runs.run (step w) s ops).Timely w op) {id : String} {t : U64}
    (hListed : (Runs.run (step w) s ops).mesh.activatedAt id = some t) :
    (Runs.run (step w) s (ops ++ [op])).mesh.activatedAt id = some t := by
  have hRun : Runs.run (step w) s (ops ++ [op]) = (Runs.run (step w) s ops).step w op :=
    Runs.run_append ..
  rw [hRun]
  cases hActivated : (Runs.run (step w) s ops).activated op with
  | none => rw [activatedAt_of_not_activated w h.keyed hActivated, hListed]
  | some j =>
    obtain ⟨_, _, _, c, -, hLookup, -, -, hLater⟩ := activated_eq_some w h.keyed hActivated
    have hNe : id ≠ c.id := by
      rintro rfl
      refine h.activated_new hTimely hActivated ?_
      rw [← h.keyed j c hLookup]
      exact h.listed _ t hListed
    rw [hLater, ReleaseMeshState.activatedAt_putAllowlist]
    exact (if_neg hNe).trans hListed

theorem Accounted.of_everyStep (hStart : Accounted w s [])
    (h : Runs.EveryStep (step w) (Timely w) s ops) : Accounted w s ops := by
  induction ops using List.reverseRecOn with
  | nil => exact hStart
  | append_singleton ops op ih =>
    rw [Runs.everyStep_append] at h
    exact (ih h.1).snoc h.2.1

theorem Accounted.activatedAt_append (hStart : Accounted w s []) {pre post : List ReleaseOp}
    (h : Runs.EveryStep (step w) (Timely w) s (pre ++ post)) {id : String} {t : U64}
    (hListed : (Runs.run (step w) s pre).mesh.activatedAt id = some t) :
    (Runs.run (step w) s (pre ++ post)).mesh.activatedAt id = some t := by
  induction post using List.reverseRecOn with
  | nil => rwa [List.append_nil]
  | append_singleton post op ih =>
    rw [← List.append_assoc] at h ⊢
    obtain ⟨hBefore, hTimely, -⟩ := (Runs.everyStep_append ..).mp h
    exact (hStart.of_everyStep hBefore).activatedAt_snoc hTimely (ih hBefore)

end Invariant

/--
**Rewarded once.** A run in which no vault is paid for a cosign that is in
already, and no listed release is activated again, pays every cosign and every
activation once and changes no time of activation.
-/
theorem rewardedOnce_of_timely (w : ReleaseWiring) (policy : ReleasePolicy)
    (economy : EconomyPools) (ledger : GovernanceLedger) (ops : List ReleaseOp)
    (h : Runs.EveryStep (step w) (Timely w) (fresh policy economy ledger) ops) :
    RewardedOnce w (fresh policy economy ledger) ops := by
  have hStart := Accounted.nil w policy economy ledger
  have hRun := hStart.of_everyStep h
  refine ⟨?_, hRun.once, hRun.once.sublist (rewards_sublist w _ ops), ?_⟩
  · rw [← List.toFinset_card_of_nodup hRun.paid]
    refine Finset.card_le_card fun p hp => ?_
    rw [List.mem_toFinset] at hp ⊢
    exact (paid_sublist w _ ops).subset hp
  · rintro pre post id t rfl hListed
    exact hStart.activatedAt_append h hListed

/-! ### A vault and a release that are paid twice -/

/-- With a bounty of one satoshi. -/
def payingWiring : ReleaseWiring :=
  { sha256 := foldDigest, governance := some ⟨⟨"v1"⟩, ⟨1, 0⟩⟩ }

def cosignAt (now : Nat) : ReleaseOp := .cosign ⟨"v1"⟩ "r1" (toU64 now) (.ok ())

def activateAt (now : Nat) : ReleaseOp := .activate "r1" (toU64 now) (toU64 now) (.ok ())

/-- A source is proposed and rebuilt. -/
def rebuiltOps : List ReleaseOp :=
  [.propose "r1" (textBytes "one") (.ofKeys ["alice"]) (toU64 0), .rebuild "r1" ⟨"v1"⟩]

theorem rewardedOnce_once :
    RewardedOnce payingWiring soloNode (rebuiltOps ++ [cosignAt 1, activateAt 2]) ∧
      (Runs.emits (step payingWiring) (activationReward payingWiring) soloNode
        (rebuiltOps ++ [cosignAt 1, activateAt 2])).length = 1 :=
  ⟨rewardedOnce_of_timely payingWiring .solo soloEconomy soloLedger
    (rebuiltOps ++ [cosignAt 1, activateAt 2]) (by decide +kernel), by decide +kernel⟩

theorem rewardedOnce_fails : ¬ ∀ ops, RewardedOnce payingWiring soloNode ops := by
  intro h
  have hCosigns := (h (rebuiltOps ++ [cosignAt 1, cosignAt 2])).cosigns
  exact absurd hCosigns (by decide +kernel)

end ReleaseNode

end KeroseneVault
