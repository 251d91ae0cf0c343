import KeroseneVault.Domain.Basic
import KeroseneVault.Lib.Runs
import KeroseneVault.Lib.Table

/-!
# Shares that move to another suite

`share_migration.rs`. A share is unsealed under its old suite, sealed under the new one, read
back and compared, and then deleted under the old one. Each of these calls of the port can
fail, before or after it did its work, and the node can stop in the middle of it.

* `MigrationFates` — what becomes of the four calls;
* `migrateOne`, `migrateAllStale` — the migration of one share, and of all that are found;
* `MigrationCall`, `step` — calls in any order;
* `shareOf` — what a migration is not to change: the plaintext of each share.

Main results:

* `shareOf_step` — between two suites no call changes the plaintext of a share;
* `migrateAllCalm_eq` — a migration without failures leaves nothing under the old suite;
* `share_migration_never_loses_iff` — nothing is lost exactly between two suites, with a delete
  that leaves the share where it fails.
-/

namespace KeroseneVault

-- ---------------------------------------------------------------------------
-- The port
-- ---------------------------------------------------------------------------

/-- The plaintexts that can be unsealed, by share id and suite. -/
abbrev SuiteShares := Table (String × String) (List UInt8)

/-- How a call ended, if the node did not stop in it. -/
inductive Ended (α : Type) where
  | stopped
  | returned (r : Except DomainError α)

/-- A read: it finds what is there and answers `absent` where nothing is, or it fails, or the
node stops. -/
inductive ReadFate where
  | works (absent : DomainError)
  | fails (e : DomainError)
  | stops

/-- What a reseal leaves under the new suite, whatever it answers. -/
inductive SealEffect where
  | nothing
  | sealed
  | garbled (content : Option (List UInt8))

/-- What a call answers, with `none` where the node stops, and what it does. -/
structure WriteFate (ε : Type) where
  answer : Option Outcome
  effect : ε

/-- What becomes of the four calls of a migration; of the delete, whether it deletes. -/
structure MigrationFates where
  unsealOld : ReadFate
  resealNew : WriteFate SealEffect
  verify : ReadFate
  deleteOld : WriteFate Bool

namespace SuiteShares

/-- `detect_stale_shares`, where it works: the ids under a suite. -/
def staleIds (oldSuite : String) (s : SuiteShares) : List String :=
  (s.keys.filter fun k => k.2 = oldSuite).map Prod.fst

/-- `unseal_old`. -/
def unsealOld (fate : ReadFate) (id suite : String) (s : SuiteShares) : Ended (List UInt8) :=
  match fate with
  | .stops => .stopped
  | .fails e => .returned (.error e)
  | .works absent =>
    match s.lookup (id, suite) with
    | none => .returned (.error absent)
    | some plaintext => .returned (.ok plaintext)

/-- `reseal_new`, what it leaves. -/
def resealNew (effect : SealEffect) (id : String) (plaintext : List UInt8) (newSuite : String)
    (s : SuiteShares) : SuiteShares :=
  match effect with
  | .nothing => s
  | .sealed => s.insert (id, newSuite) plaintext
  | .garbled none => s.erase (id, newSuite)
  | .garbled (some content) => s.insert (id, newSuite) content

/-- `delete_old`, what it leaves. -/
def deleteOld (deleted : Bool) (id oldSuite : String) (s : SuiteShares) : SuiteShares :=
  if deleted then s.erase (id, oldSuite) else s

-- ---------------------------------------------------------------------------
-- The migration
-- ---------------------------------------------------------------------------

/-- `migrate_one`. -/
def migrateOne (fates : MigrationFates) (id oldSuite newSuite : String) (s : SuiteShares) :
    Ended Unit × SuiteShares :=
  match s.unsealOld fates.unsealOld id oldSuite with
  | .stopped => (.stopped, s)
  | .returned (.error e) => (.returned (.error e), s)
  | .returned (.ok plaintext) =>
    let s := s.resealNew fates.resealNew.effect id plaintext newSuite
    match fates.resealNew.answer with
    | none => (.stopped, s)
    | some (.error e) => (.returned (.error e), s)
    | some (.ok ()) =>
      match s.unsealOld fates.verify id newSuite with
      | .stopped => (.stopped, s)
      | .returned (.error e) => (.returned (.error e), s)
      | .returned (.ok verified) =>
        if verified ≠ plaintext then
          (.returned (.error (.shareStoreForbidden
            s!"migration verify failed for {id}: plaintext mismatch")), s)
        else
          let s := s.deleteOld fates.deleteOld.effect id oldSuite
          match fates.deleteOld.answer with
          | none => (.stopped, s)
          | some answer => (.returned answer, s)

/-- The shares of a list, the `n`-th first; the first error ends it. -/
def migrateEach (fates : ℕ → MigrationFates) (oldSuite newSuite : String) :
    ℕ → List String → SuiteShares → Ended Unit × SuiteShares
  | _, [], s => (.returned (.ok ()), s)
  | n, id :: rest, s =>
    match s.migrateOne (fates n) id oldSuite newSuite with
    | (.returned (.ok ()), s) => migrateEach fates oldSuite newSuite (n + 1) rest s
    | (ended, s) => (ended, s)

/-- `migrate_all_stale`. -/
def migrateAllStale (detect : WriteFate Unit) (fates : ℕ → MigrationFates)
    (oldSuite newSuite : String) (s : SuiteShares) : Ended ℕ × SuiteShares :=
  match detect.answer with
  | none => (.stopped, s)
  | some (.error e) => (.returned (.error e), s)
  | some (.ok ()) =>
    let stale := s.staleIds oldSuite
    if stale = [] then (.returned (.ok 0), s)
    else
      match s.migrateEach fates oldSuite newSuite 0 stale with
      | (.stopped, s) => (.stopped, s)
      | (.returned (.error e), s) => (.returned (.error e), s)
      | (.returned (.ok ()), s) => (.returned (.ok stale.length), s)

/-- A call of the port's user. -/
inductive MigrationCall where
  | one (id : String) (fates : MigrationFates)
  | all (detect : WriteFate Unit) (fates : ℕ → MigrationFates)

/-- What a call leaves. -/
def step (oldSuite newSuite : String) (s : SuiteShares) : MigrationCall → SuiteShares
  | .one id fates => (s.migrateOne fates id oldSuite newSuite).2
  | .all detect fates => (s.migrateAllStale detect fates oldSuite newSuite).2

/-- Nothing fails before the delete. -/
def fatesUpTo (delete : WriteFate Bool) : MigrationFates :=
  ⟨.works .invalidNodeId, ⟨some (.ok ()), .sealed⟩, .works .invalidNodeId, delete⟩

/-- Nothing fails. -/
def calmFates : MigrationFates := fatesUpTo ⟨some (.ok ()), true⟩

/-- A migration of all shares in which nothing fails. -/
def migrateAllCalm (oldSuite newSuite : String) (s : SuiteShares) : Ended ℕ × SuiteShares :=
  s.migrateAllStale ⟨some (.ok ()), ()⟩ (fun _ => calmFates) oldSuite newSuite

-- ---------------------------------------------------------------------------
-- What one migration can do
-- ---------------------------------------------------------------------------

section One

variable {fates : MigrationFates} {id oldSuite newSuite : String} {s : SuiteShares}

theorem unsealOld_eq_ok {fate : ReadFate} {suite : String} {plaintext : List UInt8}
    (h : s.unsealOld fate id suite = .returned (.ok plaintext)) :
    s.lookup (id, suite) = some plaintext := by
  unfold unsealOld at h
  split at h
  · cases h
  · cases h
  split at h
  · cases h
  · rename_i hLookup
    cases h
    exact hLookup

/-- Nothing was done; or the share was sealed again, more or less; or the new copy was found
to be good, and the old one deleted or not. -/
theorem migrateOne_cases (fates : MigrationFates) (id oldSuite newSuite : String)
    (s : SuiteShares) :
    ((s.migrateOne fates id oldSuite newSuite).1 ≠ .returned (.ok ()) ∧
      (s.migrateOne fates id oldSuite newSuite).2 = s) ∨
    (∃ plaintext, s.lookup (id, oldSuite) = some plaintext ∧
      (s.migrateOne fates id oldSuite newSuite).1 ≠ .returned (.ok ()) ∧
      (s.migrateOne fates id oldSuite newSuite).2 =
        s.resealNew fates.resealNew.effect id plaintext newSuite) ∨
    (∃ plaintext, s.lookup (id, oldSuite) = some plaintext ∧
      (s.resealNew fates.resealNew.effect id plaintext newSuite).lookup (id, newSuite) =
        some plaintext ∧
      (∀ answer, (s.migrateOne fates id oldSuite newSuite).1 = .returned answer →
        fates.deleteOld.answer = some answer) ∧
      (s.migrateOne fates id oldSuite newSuite).2 =
        (s.resealNew fates.resealNew.effect id plaintext newSuite).deleteOld
          fates.deleteOld.effect id oldSuite) := by
  unfold migrateOne
  cases hOld : s.unsealOld fates.unsealOld id oldSuite with
  | stopped => exact .inl ⟨by nofun, rfl⟩
  | returned r =>
    cases r with
    | error e => exact .inl ⟨by nofun, rfl⟩
    | ok plaintext =>
      have hLookup := unsealOld_eq_ok hOld
      dsimp only
      -- from here on the new copy may have been written, whatever is answered
      cases hSeal : fates.resealNew.answer with
      | none => exact .inr (.inl ⟨plaintext, hLookup, by nofun, rfl⟩)
      | some answer =>
        cases answer with
        | error e => exact .inr (.inl ⟨plaintext, hLookup, by nofun, rfl⟩)
        | ok =>
          dsimp only
          cases hNew : (s.resealNew fates.resealNew.effect id plaintext newSuite).unsealOld
              fates.verify id newSuite with
          | stopped => exact .inr (.inl ⟨plaintext, hLookup, by nofun, rfl⟩)
          | returned r =>
            cases r with
            | error e => exact .inr (.inl ⟨plaintext, hLookup, by nofun, rfl⟩)
            | ok verified =>
              dsimp only
              -- the old copy is deleted only behind this comparison
              by_cases hSame : verified = plaintext
              · subst hSame
                rw [if_neg (fun hNe => hNe rfl)]
                refine .inr (.inr ⟨verified, hLookup, unsealOld_eq_ok hNew, ?_, ?_⟩)
                · intro answer hAnswer
                  cases hDelete : fates.deleteOld.answer with
                  | none =>
                    rw [hDelete] at hAnswer
                    cases hAnswer
                  | some deleted =>
                    rw [hDelete] at hAnswer
                    cases hAnswer
                    rfl
                · cases fates.deleteOld.answer with
                  | none => rfl
                  | some deleted => rfl
              · rw [if_pos hSame]
                exact .inr (.inl ⟨plaintext, hLookup, by nofun, rfl⟩)

/-- A reseal touches the new copy alone. -/
theorem lookup_resealNew_of_ne (effect : SealEffect) (plaintext : List UInt8)
    {k : String × String} (h : k ≠ (id, newSuite)) :
    (s.resealNew effect id plaintext newSuite).lookup k = s.lookup k := by
  match effect with
  | .nothing => rfl
  | .sealed => exact AList.lookup_insert_ne h
  | .garbled none => exact AList.lookup_erase_ne h
  | .garbled (some content) => exact AList.lookup_insert_ne h

/-- A delete touches the old copy alone. -/
theorem lookup_deleteOld_of_ne (deleted : Bool) {k : String × String} (h : k ≠ (id, oldSuite)) :
    (s.deleteOld deleted id oldSuite).lookup k = s.lookup k := by
  unfold deleteOld
  split
  · exact AList.lookup_erase_ne h
  · rfl

/-- A migration touches the two copies of its share. -/
theorem lookup_migrateOne_of_ne (fates : MigrationFates) {k : String × String}
    (hOld : k ≠ (id, oldSuite)) (hNew : k ≠ (id, newSuite)) :
    (s.migrateOne fates id oldSuite newSuite).2.lookup k = s.lookup k := by
  rcases migrateOne_cases fates id oldSuite newSuite s with
    ⟨-, hSame⟩ | ⟨plaintext, -, -, hSealed⟩ | ⟨plaintext, -, -, -, hDeleted⟩
  · rw [hSame]
  · rw [hSealed, lookup_resealNew_of_ne _ _ hNew]
  · rw [hDeleted, lookup_deleteOld_of_ne _ hOld, lookup_resealNew_of_ne _ _ hNew]

end One

-- ---------------------------------------------------------------------------
-- Two suites
-- ---------------------------------------------------------------------------

/-- The plaintext of a share, under the old suite first. -/
def shareOf (oldSuite newSuite : String) (s : SuiteShares) (id : String) : Option (List UInt8) :=
  (s.lookup (id, oldSuite)).or (s.lookup (id, newSuite))

section TwoSuites

variable {oldSuite newSuite : String} (hSuites : oldSuite ≠ newSuite)
include hSuites

theorem copies_ne (id : String) : (id, oldSuite) ≠ (id, newSuite) := fun hEq =>
  hSuites (Prod.mk.inj hEq).2

/-- A migration leaves the old copy, or it leaves a new one of the same plaintext. -/
theorem copy_migrateOne (fates : MigrationFates) {id : String} {s : SuiteShares}
    {plaintext : List UInt8} (h : s.lookup (id, oldSuite) = some plaintext) :
    let s' := (s.migrateOne fates id oldSuite newSuite).2
    s'.lookup (id, oldSuite) = some plaintext ∨
      s'.lookup (id, oldSuite) = none ∧ s'.lookup (id, newSuite) = some plaintext := by
  intro s'
  rcases migrateOne_cases fates id oldSuite newSuite s with
    ⟨-, hSame⟩ | ⟨plaintext', -, -, hSealed⟩ | ⟨plaintext', hLookup, hVerified, -, hDeleted⟩
  · left
    rw [show s' = s from hSame, h]
  · left
    rw [show s' = _ from hSealed, lookup_resealNew_of_ne _ _ (copies_ne hSuites id), h]
  · obtain rfl := Option.some.inj (hLookup.symm.trans h)
    rw [show s' = _ from hDeleted]
    -- the delete ran: what it spared is still there, what it took was verified
    cases fates.deleteOld.effect with
    | false =>
      left
      show (s.resealNew _ id plaintext' newSuite).lookup (id, oldSuite) = _
      rw [lookup_resealNew_of_ne _ _ (copies_ne hSuites id), h]
    | true =>
      right
      refine ⟨AList.lookup_erase _ _, ?_⟩
      rw [lookup_deleteOld_of_ne _ (copies_ne hSuites id).symm, hVerified]

/-- Between two suites no migration changes the plaintext of a share. -/
theorem shareOf_migrateOne (fates : MigrationFates) (id other : String) (s : SuiteShares) :
    shareOf oldSuite newSuite (s.migrateOne fates id oldSuite newSuite).2 other =
      shareOf oldSuite newSuite s other := by
  by_cases hOther : other = id
  · subst hOther
    cases hOld : s.lookup (other, oldSuite) with
    | some plaintext =>
      unfold shareOf
      rw [hOld]
      rcases copy_migrateOne hSuites fates hOld with hKept | ⟨hGone, hMoved⟩
      · rw [hKept]
        rfl
      · rw [hGone, hMoved]
        rfl
    | none =>
      -- there is nothing to unseal
      rcases migrateOne_cases fates other oldSuite newSuite s with
        ⟨-, hSame⟩ | ⟨plaintext, hLookup, -⟩ | ⟨plaintext, hLookup, -⟩
      · rw [hSame]
      · rw [hOld] at hLookup
        cases hLookup
      · rw [hOld] at hLookup
        cases hLookup
  · have hNe (suite suite' : String) : (other, suite) ≠ (id, suite') := fun hEq =>
      hOther (Prod.mk.inj hEq).1
    unfold shareOf
    rw [lookup_migrateOne_of_ne fates (hNe _ _) (hNe _ _),
      lookup_migrateOne_of_ne fates (hNe _ _) (hNe _ _)]

theorem shareOf_migrateEach (fates : ℕ → MigrationFates) (other : String) (n : ℕ)
    (ids : List String) (s : SuiteShares) :
    shareOf oldSuite newSuite (s.migrateEach fates oldSuite newSuite n ids).2 other =
      shareOf oldSuite newSuite s other := by
  induction ids generalizing n s with
  | nil => rfl
  | cons id rest ih =>
    have hOne := shareOf_migrateOne hSuites (fates n) id other s
    unfold migrateEach
    -- the first share that fails ends the list
    split
    · rename_i s' hEnded
      rw [hEnded] at hOne
      exact (ih (n + 1) s').trans hOne
    · rename_i ended s' _ hEnded
      rw [hEnded] at hOne
      exact hOne

/-- No call changes the plaintext of a share. -/
theorem shareOf_step (s : SuiteShares) (call : MigrationCall) (other : String) :
    shareOf oldSuite newSuite (step oldSuite newSuite s call) other =
      shareOf oldSuite newSuite s other := by
  match call with
  | .one id fates => exact shareOf_migrateOne hSuites fates id other s
  | .all detect fates =>
    have hEach := shareOf_migrateEach hSuites fates other 0 (s.staleIds oldSuite) s
    show shareOf _ _ (s.migrateAllStale detect fates oldSuite newSuite).2 other = _
    unfold migrateAllStale
    dsimp only
    -- a detection that fails or finds nothing does nothing
    split
    · rfl
    · rfl
    split
    · rfl
    split
    · rename_i hEnded
      rwa [hEnded] at hEach
    · rename_i hEnded
      rwa [hEnded] at hEach
    · rename_i hEnded
      rwa [hEnded] at hEach

/-- Nor does any run of calls. -/
theorem shareOf_run (s : SuiteShares) (calls : List MigrationCall) (other : String) :
    shareOf oldSuite newSuite (Runs.run (step oldSuite newSuite) s calls) other =
      shareOf oldSuite newSuite s other :=
  Runs.run_preserves (P := fun s' => shareOf oldSuite newSuite s' other =
    shareOf oldSuite newSuite s other)
    (fun s' call hSame => (shareOf_step hSuites s' call other).trans hSame) rfl calls

end TwoSuites

-- ---------------------------------------------------------------------------
-- Without failures
-- ---------------------------------------------------------------------------

theorem mem_staleIds {oldSuite : String} {s : SuiteShares} {id : String} :
    id ∈ s.staleIds oldSuite ↔ ∃ plaintext, s.lookup (id, oldSuite) = some plaintext := by
  unfold staleIds
  rw [List.mem_map]
  constructor
  · rintro ⟨⟨id', suite⟩, hKey, rfl⟩
    obtain ⟨hMem, hSuite⟩ := List.mem_filter.mp hKey
    obtain rfl : suite = oldSuite := of_decide_eq_true hSuite
    exact Option.isSome_iff_exists.mp (AList.lookup_isSome.mpr hMem)
  · rintro ⟨plaintext, hLookup⟩
    have hMem : (id, oldSuite) ∈ s := AList.lookup_isSome.mp (hLookup ▸ rfl)
    exact ⟨(id, oldSuite), List.mem_filter.mpr ⟨hMem, decide_eq_true rfl⟩, rfl⟩

theorem nodup_staleIds (oldSuite : String) (s : SuiteShares) : (s.staleIds oldSuite).Nodup := by
  refine List.Nodup.map_on ?_ (s.keys_nodup.filter _)
  intro k hk k' hk' hId
  have hSuite : k.2 = oldSuite := of_decide_eq_true (List.mem_filter.mp hk).2
  have hSuite' : k'.2 = oldSuite := of_decide_eq_true (List.mem_filter.mp hk').2
  exact Prod.ext hId (hSuite.trans hSuite'.symm)

/-- A migration in which nothing fails before the delete, between any suites. -/
theorem migrateOne_upTo {id oldSuite newSuite : String} {s : SuiteShares} {plaintext : List UInt8}
    (h : s.lookup (id, oldSuite) = some plaintext) (answer : Outcome) (deleted : Bool) :
    s.migrateOne (fatesUpTo ⟨some answer, deleted⟩) id oldSuite newSuite =
      (.returned answer,
        deleteOld deleted id oldSuite (s.insert (id, newSuite) plaintext)) := by
  have hOld (fate : DomainError) :
      s.unsealOld (.works fate) id oldSuite = .returned (.ok plaintext) := by
    unfold unsealOld
    dsimp only
    rw [h]
  have hNew (fate : DomainError) : unsealOld (.works fate) id newSuite
      (s.insert (id, newSuite) plaintext) = .returned (.ok plaintext) := by
    unfold unsealOld
    dsimp only
    rw [AList.lookup_insert]
  unfold migrateOne fatesUpTo
  dsimp only
  rw [hOld]
  -- the copy that is verified is the one just sealed
  dsimp only [resealNew]
  rw [hNew]
  dsimp only
  rw [if_neg fun hNe => hNe rfl]

theorem migrateOne_calm {id oldSuite newSuite : String} {s : SuiteShares} {plaintext : List UInt8}
    (h : s.lookup (id, oldSuite) = some plaintext) :
    s.migrateOne calmFates id oldSuite newSuite =
      (.returned (.ok ()), (s.insert (id, newSuite) plaintext).erase (id, oldSuite)) :=
  migrateOne_upTo h (.ok ()) true

section Calm

variable {oldSuite newSuite : String}

/-- Shares that are there are migrated one by one, and are gone from under the old suite. -/
theorem migrateEach_calm {ids : List String} (hNodup : ids.Nodup) {n : ℕ} {s : SuiteShares}
    (hThere : ∀ id ∈ ids, ∃ plaintext, s.lookup (id, oldSuite) = some plaintext) :
    (s.migrateEach (fun _ => calmFates) oldSuite newSuite n ids).1 = .returned (.ok ()) ∧
      ∀ id, (s.migrateEach (fun _ => calmFates) oldSuite newSuite n ids).2.lookup (id, oldSuite) =
        if id ∈ ids then none else s.lookup (id, oldSuite) := by
  induction ids generalizing n s with
  | nil => exact ⟨rfl, fun id => (if_neg List.not_mem_nil).symm⟩
  | cons id rest ih =>
    obtain ⟨plaintext, hLookup⟩ := hThere id List.mem_cons_self
    rw [List.nodup_cons] at hNodup
    -- the first share is moved; the others are where they were
    have hOthers : ∀ other, other ≠ id →
        ((s.insert (id, newSuite) plaintext).erase (id, oldSuite)).lookup (other, oldSuite) =
          s.lookup (other, oldSuite) := by
      intro other hOther
      have hNe (suite : String) : (other, oldSuite) ≠ (id, suite) := fun hEq =>
        hOther (Prod.mk.inj hEq).1
      rw [AList.lookup_erase_ne (hNe _), AList.lookup_insert_ne (hNe _)]
    have hRest := ih hNodup.2 (n := n + 1)
      (s := (s.insert (id, newSuite) plaintext).erase (id, oldSuite)) fun other hMem => by
        rw [hOthers other fun hEq => hNodup.1 (hEq ▸ hMem)]
        exact hThere other (List.mem_cons_of_mem _ hMem)
    unfold migrateEach
    rw [migrateOne_calm hLookup]
    dsimp only
    refine ⟨hRest.1, ?_⟩
    intro other
    rw [hRest.2 other]
    by_cases hOther : other = id
    · subst hOther
      rw [if_neg hNodup.1, if_pos List.mem_cons_self, AList.lookup_erase]
    · have hMem : other ∈ id :: rest ↔ other ∈ rest := by
        rw [List.mem_cons, or_iff_right hOther]
      simp only [hMem, hOthers other hOther]

/-- A migration of all shares without failures is Ok and leaves nothing under the old suite. -/
theorem migrateAllCalm_eq (oldSuite newSuite : String) (s : SuiteShares) :
    (∃ n, (s.migrateAllCalm oldSuite newSuite).1 = .returned (.ok n)) ∧
      ∀ id, (s.migrateAllCalm oldSuite newSuite).2.lookup (id, oldSuite) = none := by
  obtain ⟨hOk, hGone⟩ : (s.migrateEach (fun _ => calmFates) oldSuite newSuite 0
      (s.staleIds oldSuite)).1 = .returned (.ok ()) ∧ _ :=
    migrateEach_calm (nodup_staleIds oldSuite s) fun id hId => mem_staleIds.mp hId
  -- an id that was not found has nothing under the old suite to begin with
  have hNone : ∀ id, id ∉ s.staleIds oldSuite → s.lookup (id, oldSuite) = none := by
    intro id hId
    by_contra hSome
    exact hId (mem_staleIds.mpr (Option.ne_none_iff_exists'.mp hSome))
  unfold migrateAllCalm migrateAllStale
  dsimp only
  split
  · -- nothing is stale
    rename_i hNothing
    exact ⟨⟨0, rfl⟩, fun id => hNone id (hNothing ▸ List.not_mem_nil)⟩
  · split
    · rename_i hEnded
      rw [hEnded] at hOk
      cases hOk
    · rename_i hEnded
      rw [hEnded] at hOk
      cases hOk
    · rename_i s' hEnded
      rw [hEnded] at hGone
      refine ⟨⟨_, rfl⟩, fun id => ?_⟩
      rw [hGone id]
      split
      · rfl
      · rename_i hId
        exact hNone id hId

end Calm

-- ---------------------------------------------------------------------------
-- Nothing is lost
-- ---------------------------------------------------------------------------

/-- A delete that fails has left the share, unless it may fail `late`. -/
def Admitted (late : Bool) (fates : MigrationFates) : Prop :=
  late = false → ∀ e, fates.deleteOld.answer = some (.error e) → fates.deleteOld.effect = false

/-- What a migration from one suite to the other promises, whatever fails. -/
structure NeverLoses (late : Bool) (oldSuite newSuite : String) : Prop where
  ok : ∀ fates id plaintext (s : SuiteShares), Admitted late fates →
    s.lookup (id, oldSuite) = some plaintext →
    (s.migrateOne fates id oldSuite newSuite).1 = .returned (.ok ()) →
    (s.migrateOne fates id oldSuite newSuite).2.lookup (id, newSuite) = some plaintext
  err : ∀ fates id plaintext (s : SuiteShares) e, Admitted late fates →
    s.lookup (id, oldSuite) = some plaintext →
    (s.migrateOne fates id oldSuite newSuite).1 = .returned (.error e) →
    (s.migrateOne fates id oldSuite newSuite).2.lookup (id, oldSuite) = some plaintext
  again : ∀ (calls : List MigrationCall) (s : SuiteShares),
    let last := migrateAllCalm oldSuite newSuite (Runs.run (step oldSuite newSuite) s calls)
    (∃ n, last.1 = .returned (.ok n)) ∧ ∀ id plaintext,
      shareOf oldSuite newSuite s id = some plaintext →
        last.2.lookup (id, newSuite) = some plaintext

section Promise

variable {oldSuite newSuite : String}

theorem readable_of_ok (hSuites : oldSuite ≠ newSuite) {fates : MigrationFates} {id : String}
    {plaintext : List UInt8} {s : SuiteShares} (h : s.lookup (id, oldSuite) = some plaintext)
    (hOk : (s.migrateOne fates id oldSuite newSuite).1 = .returned (.ok ())) :
    (s.migrateOne fates id oldSuite newSuite).2.lookup (id, newSuite) = some plaintext := by
  rcases migrateOne_cases fates id oldSuite newSuite s with
    ⟨hNot, -⟩ | ⟨_, -, hNot, -⟩ | ⟨plaintext', hLookup, hVerified, -, hDeleted⟩
  · exact absurd hOk hNot
  · exact absurd hOk hNot
  · obtain rfl := Option.some.inj (hLookup.symm.trans h)
    rw [hDeleted, lookup_deleteOld_of_ne _ (copies_ne hSuites id).symm, hVerified]

theorem readable_of_error (hSuites : oldSuite ≠ newSuite) {fates : MigrationFates} {id : String}
    {plaintext : List UInt8} {s : SuiteShares} {e : DomainError} (hFates : Admitted false fates)
    (h : s.lookup (id, oldSuite) = some plaintext)
    (hErr : (s.migrateOne fates id oldSuite newSuite).1 = .returned (.error e)) :
    (s.migrateOne fates id oldSuite newSuite).2.lookup (id, oldSuite) = some plaintext := by
  rcases migrateOne_cases fates id oldSuite newSuite s with
    ⟨-, hSame⟩ | ⟨_, -, -, hSealed⟩ | ⟨plaintext', -, -, hAnswer, hDeleted⟩
  · rw [hSame, h]
  · rw [hSealed, lookup_resealNew_of_ne _ _ (copies_ne hSuites id), h]
  · rw [hDeleted, hFates rfl e (hAnswer _ hErr)]
    show (s.resealNew _ id plaintext' newSuite).lookup (id, oldSuite) = _
    rw [lookup_resealNew_of_ne _ _ (copies_ne hSuites id), h]

/-- After any calls, a migration without failures brings every share under the new suite. -/
theorem readable_again (hSuites : oldSuite ≠ newSuite) (calls : List MigrationCall)
    (s : SuiteShares) {id : String} {plaintext : List UInt8}
    (h : shareOf oldSuite newSuite s id = some plaintext) :
    (migrateAllCalm oldSuite newSuite (Runs.run (step oldSuite newSuite) s calls)).2.lookup
      (id, newSuite) = some plaintext := by
  let before := Runs.run (step oldSuite newSuite) s calls
  have hKept : shareOf oldSuite newSuite (before.migrateAllCalm oldSuite newSuite).2 id =
      some plaintext :=
    (shareOf_step hSuites before (.all ⟨some (.ok ()), ()⟩ fun _ => calmFates) id).trans
      ((shareOf_run hSuites s calls id).trans h)
  unfold shareOf at hKept
  rw [(migrateAllCalm_eq oldSuite newSuite before).2 id] at hKept
  exact hKept

end Promise

/-- A share that has no other copy. -/
def oneShare (suite : String) : SuiteShares :=
  (∅ : SuiteShares).insert ("share-a", suite) [1, 2, 3]

/-- **A migration loses nothing** exactly between two suites, with a delete that leaves the
share where it fails. -/
theorem share_migration_never_loses_iff {late : Bool} {oldSuite newSuite : String} :
    NeverLoses late oldSuite newSuite ↔ oldSuite ≠ newSuite ∧ late = false := by
  have hThere : (oneShare oldSuite).lookup ("share-a", oldSuite) = some [1, 2, 3] :=
    AList.lookup_insert _
  constructor
  · intro h
    have hSuites : oldSuite ≠ newSuite := by
      rintro rfl
      -- the copy that is deleted is the one that was sealed
      have hOk := h.ok calmFates "share-a" [1, 2, 3] (oneShare oldSuite) (fun _ _ => nofun) hThere
      rw [migrateOne_calm hThere] at hOk
      have hLost := hOk rfl
      rw [AList.lookup_erase] at hLost
      cases hLost
    refine ⟨hSuites, Bool.eq_false_iff.mpr ?_⟩
    rintro rfl
    -- a delete that fails after it deleted
    have hErr := h.err (fatesUpTo ⟨some (.error .invalidNodeId), true⟩) "share-a" [1, 2, 3]
      (oneShare oldSuite) .invalidNodeId nofun hThere
    rw [migrateOne_upTo hThere] at hErr
    have hLost : (deleteOld true "share-a" oldSuite _).lookup ("share-a", oldSuite) = _ := hErr rfl
    rw [deleteOld, if_pos rfl, AList.lookup_erase] at hLost
    cases hLost
  · rintro ⟨hSuites, rfl⟩
    refine ⟨?_, ?_, ?_⟩
    · intro fates id plaintext s _ hOld hOk
      exact readable_of_ok hSuites hOld hOk
    · intro fates id plaintext s e hFates hOld hErr
      exact readable_of_error hSuites hFates hOld hErr
    · intro calls s
      exact ⟨(migrateAllCalm_eq oldSuite newSuite _).1,
        fun id plaintext => readable_again hSuites calls s⟩

/-- Within one suite a migration in which nothing fails loses the share. -/
theorem share_migration_one_suite_loses :
    ¬ ∀ oldSuite newSuite : String, NeverLoses false oldSuite newSuite := by
  intro h
  have hThere : (oneShare "classical").lookup ("share-a", "classical") = some [1, 2, 3] :=
    AList.lookup_insert _
  have hOk := (h "classical" "classical").ok calmFates "share-a" [1, 2, 3]
    (oneShare "classical") (fun _ _ => nofun) hThere
  rw [migrateOne_calm hThere] at hOk
  have hLost := hOk rfl
  rw [AList.lookup_erase] at hLost
  cases hLost

end SuiteShares

end KeroseneVault
