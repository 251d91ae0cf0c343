import Mathlib.Data.List.DropRight
import Mathlib.Data.List.TakeWhile
import Mathlib.Tactic.Ring

/-!
# Append-only logs of lines

A log file is text that is empty or ends in a newline; a record is appended
as one line (`writeln!`), and a restart reads the file back line by line,
trims each line and keeps those a filter admits. `Log` carries the
termination in its type, so a record never lands on the tail of an
unfinished line.

* `Log.append` — write one record and its newline;
* `Log.load` — the records a restart reads back;
* `Survives` — a record that is one line, is its own trimmed form and is
  admitted by the filter;
* `Log.Recorded` — the record was written to the log;
* `Log.Holds` — these are the records of the log, in order;
* `readBack` — what a restart makes of one record.

Main results:

* `Recorded.append` — a record stays in the log;
* `Recorded.mem_load` — a record that survives is read back ever after;
* `survives_of_mem_readBack` — what a restart reads back survives.
-/

namespace LineLog

/-! ## Lines and trimming -/

/-- The lines of a text, without their newlines; a final newline opens no
further line. -/
def lines : List Char → List (List Char)
  | [] => []
  | c :: cs =>
    if c = '\n' then [] :: lines cs
    else
      match lines cs with
      | [] => [[c]]
      | l :: ls => (c :: l) :: ls

/-- The Unicode `White_Space` property. -/
def isWhitespace (c : Char) : Bool :=
  let n := c.toNat
  (9 ≤ n && n ≤ 13) || n == 0x20 || n == 0x85 || n == 0xA0 || n == 0x1680 ||
    (0x2000 ≤ n && n ≤ 0x200A) || n == 0x2028 || n == 0x2029 || n == 0x202F ||
    n == 0x205F || n == 0x3000

/-- The text without leading and trailing whitespace. -/
def trim (x : List Char) : List Char :=
  (x.dropWhile isWhitespace).rdropWhile isWhitespace

/-- A text without whitespace is as it was. -/
theorem trim_eq_self {x : List Char} (h : ∀ c ∈ x, isWhitespace c = false) : trim x = x := by
  have hFront : x.dropWhile isWhitespace = x := by
    rw [List.dropWhile_eq_self_iff]
    intro hLength
    rw [h _ (List.getElem_mem hLength)]
    simp
  rw [trim, hFront, List.rdropWhile_eq_self_iff]
  intro hne
  rw [h _ (List.getLast_mem hne)]
  simp

/-- Empty, or ending in a newline. -/
def Terminated (x : List Char) : Prop := x = [] ∨ x.getLast? = some '\n'

theorem terminated_append_newline (x : List Char) : Terminated (x ++ ['\n']) :=
  Or.inr (by simp)

theorem Terminated.tail {c : Char} {cs : List Char} (h : Terminated (c :: cs)) :
    Terminated cs := by
  cases cs with
  | nil => exact Or.inl rfl
  | cons d ds =>
    refine Or.inr ?_
    rcases h with h | h
    · cases h
    · rwa [List.getLast?_cons_cons] at h

theorem lines_ne_nil {x : List Char} (hx : x ≠ []) : lines x ≠ [] := by
  cases x with
  | nil => exact absurd rfl hx
  | cons c cs =>
    rw [lines]
    split
    · simp
    · split <;> simp

/-- The lines of a terminated text are untouched by what follows it. -/
theorem lines_append {x : List Char} (hx : Terminated x) (y : List Char) :
    lines (x ++ y) = lines x ++ lines y := by
  induction x with
  | nil => simp [lines]
  | cons c cs ih =>
    have ih := ih hx.tail
    rw [List.cons_append, lines, lines, ih]
    by_cases hc : c = '\n'
    · simp [hc]
    · simp only [hc, if_false]
      -- an unfinished line needs a character after it, so `cs` is not empty
      have hcs : cs ≠ [] := by
        rintro rfl
        rcases hx with hx | hx
        · cases hx
        · simp at hx
          exact hc hx
      cases hl : lines cs with
      | nil => exact absurd hl (lines_ne_nil hcs)
      | cons l ls => simp

/-- A record without a newline is one line. -/
theorem lines_record {x : List Char} (hx : '\n' ∉ x) : lines (x ++ ['\n']) = [x] := by
  induction x with
  | nil => simp [lines]
  | cons c cs ih =>
    have hc : c ≠ '\n' := fun h => hx (h ▸ List.mem_cons_self ..)
    have hcs : '\n' ∉ cs := fun h => hx (List.mem_cons_of_mem _ h)
    rw [List.cons_append, lines, ih hcs]
    simp [hc]

/-! ## The log -/

/-- Text that is empty or ends in a newline. -/
structure Log where
  text : List Char
  terminated : Terminated text

namespace Log

/-- The log of a file that does not exist yet. -/
def empty : Log := ⟨[], Or.inl rfl⟩

/-- `writeln!`: the record and a newline, at the end of the file. -/
def append (log : Log) (x : List Char) : Log :=
  ⟨log.text ++ (x ++ ['\n']), by
    rw [← List.append_assoc]
    exact terminated_append_newline _⟩

/-- What a restart reads back: each line trimmed, the ones `keep` admits. -/
def load (keep : List Char → Bool) (log : Log) : List (List Char) :=
  ((lines log.text).map trim).filter keep

/-- The record was written: it stands in the log as a line of its own, from a
line start to a newline. -/
def Recorded (log : Log) (x : List Char) : Prop :=
  ∃ before after, Terminated before ∧ log.text = before ++ (x ++ ['\n']) ++ after

/-- The records of the log, in the order they were written. -/
def Holds (log : Log) (xs : List (List Char)) : Prop := log.text = xs.flatMap fun x => x ++ ['\n']

end Log

/-- The record is one line, its own trimmed form, and admitted by `keep`. -/
structure Survives (keep : List Char → Bool) (x : List Char) : Prop where
  oneLine : '\n' ∉ x
  trimmed : trim x = x
  kept : keep x = true

instance (keep : List Char → Bool) (x : List Char) : Decidable (Survives keep x) :=
  decidable_of_iff ('\n' ∉ x ∧ trim x = x ∧ keep x = true)
    ⟨fun h => ⟨h.1, h.2.1, h.2.2⟩, fun h => ⟨h.oneLine, h.trimmed, h.kept⟩⟩

open Log

theorem recorded_append (log : Log) (x : List Char) : (log.append x).Recorded x :=
  ⟨log.text, [], log.terminated, by simp [append]⟩

theorem Recorded.text_ne_nil {log : Log} {x : List Char} (h : log.Recorded x) :
    log.text ≠ [] := by
  obtain ⟨before, after, -, ht⟩ := h
  rw [ht]
  simp

/-- A record stays in the log. -/
theorem Recorded.append {log : Log} {x : List Char} (h : log.Recorded x) (y : List Char) :
    (log.append y).Recorded x := by
  obtain ⟨before, after, hb, ht⟩ := h
  exact ⟨before, after ++ (y ++ ['\n']), hb, by simp [Log.append, ht]⟩

/-- A record that survives is read back at every later restart. -/
theorem Recorded.mem_load {keep : List Char → Bool} {log : Log} {x : List Char}
    (h : log.Recorded x) (hx : Survives keep x) : x ∈ log.load keep := by
  obtain ⟨before, after, hb, ht⟩ := h
  have hmem : x ∈ lines log.text := by
    rw [ht, List.append_assoc, lines_append hb,
      lines_append (terminated_append_newline x), lines_record hx.oneLine]
    simp
  rw [load, List.mem_filter, List.mem_map]
  exact ⟨⟨x, hmem, hx.trimmed⟩, hx.kept⟩

/-! ## All the records of a log -/

/-- What a restart reads back of one record: none, itself trimmed, or its
lines. -/
def readBack (keep : List Char → Bool) (x : List Char) : List (List Char) :=
  ((lines (x ++ ['\n'])).map trim).filter keep

theorem trim_trim (x : List Char) : trim (trim x) = trim x := by
  have hFront : (trim x).dropWhile isWhitespace = trim x := by
    rw [List.dropWhile_eq_self_iff]
    intro hLength
    -- the first character is that of the text without its leading whitespace
    have hPrefix : trim x <+: x.dropWhile isWhitespace := List.rdropWhile_prefix _ _
    have hHead : (trim x)[0] = (x.dropWhile isWhitespace).get ⟨0, hLength.trans_le hPrefix.length_le⟩ :=
      hPrefix.getElem hLength
    rw [hHead]
    exact List.dropWhile_get_zero_not _ _ (hLength.trans_le hPrefix.length_le)
  rw [trim, hFront]
  exact List.rdropWhile_idempotent _ _

/-- A line has no newline in it. -/
theorem newline_notMem_of_mem_lines {x l : List Char} (h : l ∈ lines x) : '\n' ∉ l := by
  -- a newline ends the line that it comes in
  induction x generalizing l with
  | nil => cases h
  | cons c cs ih =>
    rw [lines] at h
    split at h
    · rcases List.mem_cons.mp h with rfl | h
      · simp
      · exact ih h
    · rename_i hc
      cases hLines : lines cs with
      | nil =>
        rw [hLines] at h
        obtain rfl := List.mem_singleton.mp h
        simpa [eq_comm] using hc
      | cons first rest =>
        rw [hLines] at h
        rcases List.mem_cons.mp h with rfl | h
        · have hFirst := ih (hLines ▸ List.mem_cons_self ..)
          rw [List.mem_cons, not_or]
          exact ⟨fun hEq => hc hEq.symm, hFirst⟩
        · exact ih (hLines ▸ List.mem_cons_of_mem _ h)

/-- What a restart reads back survives. -/
theorem survives_of_mem_readBack {keep : List Char → Bool} {x y : List Char}
    (h : y ∈ readBack keep x) : Survives keep y := by
  obtain ⟨hMem, hKeep⟩ := List.mem_filter.mp h
  obtain ⟨line, hLine, rfl⟩ := List.mem_map.mp hMem
  refine ⟨fun hNewline => ?_, trim_trim line, hKeep⟩
  have hSub : (trim line).Sublist line :=
    (List.rdropWhile_prefix _ _).sublist.trans (List.dropWhile_sublist _)
  exact newline_notMem_of_mem_lines hLine (hSub.subset hNewline)

end LineLog
