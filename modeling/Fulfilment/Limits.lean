/-!
# Limits

How often a contended write is tried, and how many entries one scan takes. Both are at least one, so
that every operation tries and every scan makes progress. What is tried again after a conflict is
tried once more than it is repeated, and these attempts are counted in a 32-bit word.
-/
namespace Fulfilment

/-- How often a contended write is tried. -/
structure RetryBudget where
  attempts : Nat := 10
  attempts_pos : 0 < attempts := by omega
deriving DecidableEq, Repr

/-- A budget of at least one attempt. -/
def RetryBudget.ofNat (n : Nat) : RetryBudget := ⟨max n 1, by omega⟩

/-- How many entries one scan takes. -/
structure BatchSize where
  count : Nat := 100
  count_pos : 0 < count := by omega
deriving DecidableEq, Repr

/-- A batch of at least one entry. -/
def BatchSize.ofNat (n : Nat) : BatchSize := ⟨max n 1, by omega⟩

/-- How often a signal is tried again whose order someone else saved first. A word has room for the
first attempt besides. -/
structure ConflictRetries where
  count : Nat
  count_lt : count < 4294967295
deriving DecidableEq, Repr

/-- As many retries as are asked for and can be counted. -/
def ConflictRetries.ofNat (n : Nat) : ConflictRetries := ⟨min n 4294967294, by omega⟩

end Fulfilment
