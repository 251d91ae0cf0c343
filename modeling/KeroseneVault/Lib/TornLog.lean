import KeroseneVault.Lib.LineLog

/-!
# Log files with writes that broke off

`LineLog.Log` is a log whose appends go through or leave nothing. On a file the line
of a record is written byte after byte, and a write that fails, or a process that
stops, may leave any first part of it. What is appended next starts right there, so
that a line may be glued together from several records, and a rest of a record at the
end of the file is read as a line. Where the part ends within a character, the file is
no text any more and no restart reads it.

A file is kept as the writes that made it, in order; a restart sees their text alone.

The rest of a line is carried from write to write until a line ends. Reading back is
therefore a recursion over the writes with what is open as its argument, and each entry is a
record with what broke off in front of it. An entry that is glued together is read as one
line; it is the record that was appended only where the rest in front of it is nothing but
blanks.

* `LogWrite` — one write: the whole line of a record, or its first bytes;
* `LogFile.text`, `LogFile.readable` — what the writes come to;
* `LogFile.load` — what a restart reads back;
* `LogFile.entries` — the records, each after what broke off before it.

Main results:

* `LogFile.load_eq` — a restart reads back the entries one by one;
* `LogFile.mem_load_iff_alone` — so it reads back what survives and has a line to itself;
* `LogFile.load_whole` — where no write broke off, it reads what a `Log` gives back.
-/

namespace LineLog

/-! ## Writes -/

/-- The characters that the first `n` bytes of a text hold whole. -/
def takeBytes : List Char → ℕ → List Char
  | [], _ => []
  | c :: cs, n => if c.utf8Size ≤ n then c :: takeBytes cs (n - c.utf8Size) else []

/-- The first `n` bytes of a text end between two characters, or at its end. -/
def endsWhole : List Char → ℕ → Bool
  | [], _ => true
  | c :: cs, n => n == 0 || (decide (c.utf8Size ≤ n) && endsWhole cs (n - c.utf8Size))

/-- One write to the file: a record and its newline, or the first bytes of that. -/
inductive LogWrite where
  | whole (x : List Char)
  | torn (x : List Char) (bytes : ℕ)
  deriving DecidableEq

namespace LogWrite

/-- What the write adds to the file. -/
def text : LogWrite → List Char
  | whole x => x ++ ['\n']
  | torn x bytes => takeBytes (x ++ ['\n']) bytes

/-- The write leaves no part of a character. -/
def readable : LogWrite → Bool
  | whole _ => true
  | torn x bytes => endsWhole (x ++ ['\n']) bytes

end LogWrite

/-! ## Files -/

/-- A log file, as the writes that made it. -/
structure LogFile where
  writes : List LogWrite

namespace LogFile

/-- The log of a file that does not exist yet. -/
def empty : LogFile := ⟨[]⟩

def add (f : LogFile) (w : LogWrite) : LogFile := ⟨f.writes ++ [w]⟩

def text (f : LogFile) : List Char := f.writes.flatMap LogWrite.text

/-- The file is text: no write ended within a character. What would complete the
character is never written, for a record begins with a character of its own. -/
def readable (f : LogFile) : Bool := f.writes.all LogWrite.readable

/-- What a restart reads back of a file that is text: each line trimmed, the ones
`keep` admits. -/
def load (keep : List Char → Bool) (f : LogFile) : List (List Char) :=
  ((lines f.text).map trim).filter keep

/-- The records that these writes complete, each with what broke off before it, and
the rest that none completes. -/
def entriesFrom (rest : List Char) : List LogWrite → List (List Char)
  | [] => [rest]
  | .whole x :: writes => (rest ++ x) :: entriesFrom [] writes
  | .torn x bytes :: writes => entriesFrom (rest ++ LogWrite.text (.torn x bytes)) writes

/-- The records of the file, each with what writes that broke off left in front of
it, and what they left at the end. -/
def entries (f : LogFile) : List (List Char) := entriesFrom [] f.writes

/-! ## What a restart reads back -/

/-- A last line that is not terminated is read like one that is. -/
theorem filter_lines_newline {keep : List Char → Bool} (hBlank : keep [] = false)
    (x : List Char) : ((lines x).map trim).filter keep = readBack keep x := by
  have hTrim : trim [] = [] := rfl
  have hLines : lines (x ++ ['\n']) = lines x ∨ lines (x ++ ['\n']) = lines x ++ [[]] := by
    induction x with
    | nil => exact .inr rfl
    | cons c cs ih =>
      rw [List.cons_append, lines, lines]
      by_cases hc : c = '\n'
      · rw [if_pos hc, if_pos hc]
        rcases ih with hSame | hMore
        · exact .inl (by rw [hSame])
        · exact .inr (by rw [hMore, List.cons_append])
      · rw [if_neg hc, if_neg hc]
        cases hRest : lines cs with
        | nil =>
          -- nothing follows the character, which is a line by itself either way
          have hNil : cs = [] := by
            by_contra hne
            exact lines_ne_nil hne hRest
          subst hNil
          exact .inl rfl
        | cons l ls =>
          rw [hRest] at ih
          rcases ih with hSame | hMore
          · exact .inl (by rw [hSame])
          · exact .inr (by rw [hMore]; rfl)
  unfold readBack
  rcases hLines with hSame | hMore
  · rw [hSame]
  · rw [hMore, List.map_append, List.filter_append, List.map_singleton, hTrim,
      List.filter_cons_of_neg (by simp [hBlank]), List.filter_nil, List.append_nil]

theorem load_entriesFrom {keep : List Char → Bool} (hBlank : keep [] = false)
    (rest : List Char) (writes : List LogWrite) :
    ((lines (rest ++ writes.flatMap LogWrite.text)).map trim).filter keep =
      (entriesFrom rest writes).flatMap (readBack keep) := by
  induction writes generalizing rest with
  | nil =>
    rw [List.flatMap_nil, List.append_nil, entriesFrom, List.flatMap_singleton]
    exact filter_lines_newline hBlank rest
  | cons w writes ih =>
    rw [List.flatMap_cons, ← List.append_assoc]
    cases w with
    | torn x bytes => exact ih _
    | whole x =>
      -- a newline ends the entry, and what follows starts a line
      have hText : rest ++ LogWrite.text (.whole x) = rest ++ x ++ ['\n'] :=
        (List.append_assoc ..).symm
      rw [hText, lines_append (terminated_append_newline (rest ++ x)), List.map_append,
        List.filter_append, entriesFrom, List.flatMap_cons, ← ih, List.nil_append]
      rfl

/-- **A restart reads back the entries one by one**, where it keeps no blank line. -/
theorem load_eq {keep : List Char → Bool} (hBlank : keep [] = false) (f : LogFile) :
    f.load keep = f.entries.flatMap (readBack keep) :=
  load_entriesFrom hBlank [] f.writes

theorem mem_load_iff {keep : List Char → Bool} (hBlank : keep [] = false) {f : LogFile}
    {y : List Char} : y ∈ f.load keep ↔ ∃ e ∈ f.entries, y ∈ readBack keep e := by
  rw [f.load_eq hBlank, List.mem_flatMap]

/-- Some entry has a line that holds the text and nothing else but blanks. -/
def StandsAlone (f : LogFile) (x : List Char) : Prop :=
  ∃ e ∈ f.entries, ∃ line ∈ lines (e ++ ['\n']), trim line = x

/-- A text is read back where it survives and has a line to itself. -/
theorem mem_load_iff_alone {keep : List Char → Bool} (hBlank : keep [] = false) {f : LogFile}
    {x : List Char} : x ∈ f.load keep ↔ Survives keep x ∧ f.StandsAlone x := by
  constructor
  · intro h
    obtain ⟨e, he, hRead⟩ := (mem_load_iff hBlank).mp h
    obtain ⟨line, hLine, hEq⟩ := List.mem_map.mp (List.mem_filter.mp hRead).1
    exact ⟨survives_of_mem_readBack hRead, e, he, line, hLine, hEq⟩
  · rintro ⟨hSurvives, e, he, line, hLine, rfl⟩
    exact (mem_load_iff hBlank).mpr
      ⟨e, he, List.mem_filter.mpr ⟨List.mem_map_of_mem hLine, hSurvives.kept⟩⟩

/-! ## Where no write broke off -/

/-- The log of these records, each appended whole. -/
def ofRecords (xs : List (List Char)) : LogFile := ⟨xs.map .whole⟩

theorem readable_whole (xs : List (List Char)) : (ofRecords xs).readable = true := by
  simp [readable, ofRecords, LogWrite.readable]

/-- A restart reads of the file what it reads of a log of these records. -/
theorem load_whole {keep : List Char → Bool} {log : Log} {xs : List (List Char)}
    (h : log.Holds xs) : (ofRecords xs).load keep = log.load keep := by
  have hText : (ofRecords xs).text = log.text := by
    rw [h, text, ofRecords, List.flatMap_map]
    rfl
  rw [load, Log.load, hText]

end LogFile

end LineLog
