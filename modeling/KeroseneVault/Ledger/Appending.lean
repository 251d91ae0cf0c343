import KeroseneVault.Ledger.EpochAdvance

/-!
# Appending in port calls of its own

Every use case that enters an event reads the head, then the entries, and then
appends what it made of both. Another writer can append in between.

The three calls are the same in every use case, and so are their ways to go wrong: what was
read is of one moment and what is appended of a later one. They are modelled once, as a
small machine that the executions of votes and of accruals have as their last part, so that
what an append relies on is said in one place.

* `Appending`, `Appending.turn` — how far an execution has got with it, and its
  next port call;
* `Appending.MadeBy` — the entry is made of a number and a hash.
-/

namespace KeroseneVault

/-- How far `head`, `entries` and `append` have got. -/
inductive Appending where
  | begun
  | head (prevHash : String)
  | made (entry : LedgerEntry)

namespace Appending

/-- The next port call, for the entry that `make` comes to of its index and of the
hash before it. It answers once the entry is appended or refused. -/
def turn (make : Nat → String → LedgerEntry) (l : InMemoryLedger) :
    Appending → (Appending ⊕ Outcome) × InMemoryLedger
  | .begun => (.inl (.head l.chain.headHash), l)
  | .head prevHash => (.inl (.made (make l.chain.entries.length prevHash)), l)
  | .made entry => (.inr (l.append entry).1, (l.append entry).2)

/-- The entry at hand is one that `make` comes to. -/
def MadeBy (make : Nat → String → LedgerEntry) : Appending → Prop
  | .made entry => ∃ index prevHash, entry = make index prevHash
  | _ => True

/-- The next turn appends an entry that the ledger does not accept. -/
def Refused (l : InMemoryLedger) : Appending → Prop
  | .made entry => ¬ l.chain.Accepts entry
  | _ => False

instance decidableAccepts (l : GovernanceLedger) (entry : LedgerEntry) :
    Decidable (l.Accepts entry) :=
  decidable_of_iff ((l.entries.getLast? = none → entry.index = 0) ∧
    (∀ prev ∈ l.entries.getLast?,
      entry.index = prev.index + 1 ∧ entry.prevHash = prev.entryHash) ∧
    entry.writer ∈ l.epoch.activeSet)
    ⟨fun h => ⟨h.1, h.2.1, h.2.2⟩, fun h => ⟨h.first, h.follows, h.writer⟩⟩

instance decidableRefused (l : InMemoryLedger) : ∀ a, Decidable (Refused l a)
  | .begun => isFalse fun h => h
  | .head _ => isFalse fun h => h
  | .made entry => inferInstanceAs (Decidable (¬ l.chain.Accepts entry))

/-- A turn reads on, appends the entry at hand, or has it refused. -/
theorem turn_cases (make : Nat → String → LedgerEntry) (l : InMemoryLedger) {a : Appending}
    (h : a.MadeBy make) :
    (∃ b : Appending, b.MadeBy make ∧ a.turn make l = (.inl b, l)) ∨
    (∃ entry, (∃ index prevHash, entry = make index prevHash) ∧ l.chain.Accepts entry ∧
      a.turn make l = (.inr (.ok ()), l.extend entry)) ∨
    a.Refused l ∧ ∃ e, a.turn make l = (.inr (.error e), l) := by
  cases a with
  | begun => exact .inl ⟨.head l.chain.headHash, trivial, rfl⟩
  | head prevHash => exact .inl ⟨.made (make l.chain.entries.length prevHash), ⟨_, _, rfl⟩, rfl⟩
  | made entry =>
    have hTurn : (made entry).turn make l = (.inr (l.append entry).1, (l.append entry).2) := rfl
    rw [hTurn]
    rcases l.append_cases entry with ⟨hAccepts, hEq⟩ | ⟨hNot, e, hEq⟩
    · rw [hEq]
      exact .inr (.inl ⟨entry, h, hAccepts, rfl⟩)
    · rw [hEq]
      exact .inr (.inr ⟨hNot, e, rfl⟩)

end Appending

end KeroseneVault
