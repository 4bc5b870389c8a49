import ConsensusLedger.Proofs.Record.FileName
import Mathlib.Algebra.Order.Ring.Int
import Mathlib.Data.List.Basic
import Mathlib.Data.List.Induction
import Mathlib.Tactic.Linarith.Frontend

/-!
Record files by windows. The times of a stream ascend, so its windows do; a window that is left is not
come back to, and the file of the last window is the only one that still grows.
-/

namespace ConsensusLedger

namespace RecordFiles

/-- The first second of the window that a time lies in; a window has so many seconds, and at least
one. -/
def windowStart (period : UInt64) (time : Timestamp) : Int :=
  time.seconds.toInt / (max period.toNat 1 : Nat) * (max period.toNat 1 : Nat)

def inWindow (period : UInt64) (records : List StreamedRecord) (w : Int) : List StreamedRecord :=
  records.filter fun s => windowStart period s.object.time = w

/-- The file of a window that has a record: the name of the first record, and the lines of all. -/
def fileOf? (period : UInt64) (records : List StreamedRecord) (w : Int) :
    Option (String × List String) :=
  (inWindow period records w).head?.map fun first =>
    (fileName first.object.time, (inWindow period records w).map StreamedRecord.line)

/-- The files after some records. -/
def after (f : RecordFiles) (records : List StreamedRecord) : RecordFiles :=
  records.foldl (fun f s => (f.accept s).2) f

theorem windowOf_eq {f : RecordFiles} (h : f.period.toNat ≤ 0x7fffffffffffffff) (t : Timestamp) :
    f.windowOf t = windowStart f.period t := by
  have hlength : windowLength f.period = (max f.period.toNat 1 : Nat) := by
    unfold windowLength
    omega
  have hdivision := Int.mul_ediv_add_emod t.seconds.toInt (max f.period.toNat 1 : Nat)
  rw [windowOf, windowStart, hlength]
  linarith

theorem windowStart_le {period : UInt64} {t u : Timestamp} (h : u.isAfter t = true) :
    windowStart period t ≤ windowStart period u := by
  have hseconds : t.seconds.toInt ≤ u.seconds.toInt := by
    rcases Timestamp.isAfter_iff.1 h with hlt | ⟨heq, -⟩
    · exact hlt.le
    · exact heq.le
  have hlength : (0 : Int) < (max period.toNat 1 : Nat) := by omega
  exact Int.mul_le_mul_of_nonneg_right (Int.ediv_le_ediv hlength hseconds) hlength.le

/-!
What a record does to the files.
-/

/-- A file with one more line, if it has the name. -/
def grow (name line : String) (file : String × List String) : String × List String :=
  if file.1 = name then (file.1, file.2 ++ [line]) else file

section
variable {f : RecordFiles} {s : StreamedRecord} {files : List (String × List String)}
  {name line : String}

theorem addLine_of_mem (h : ∃ file ∈ files, file.1 = name) :
    addLine files name line = files.map (grow name line) :=
  if_pos (by simpa only [List.any_eq_true, decide_eq_true_eq] using h)

theorem addLine_of_notMem (h : ∀ file ∈ files, file.1 ≠ name) :
    addLine files name line = files ++ [(name, [line])] :=
  if_neg (by simpa only [List.any_eq_true, decide_eq_true_eq, not_exists, not_and] using h)

theorem accept_of_current (h : f.current = some (f.windowOf s.object.time, name)) :
    f.accept s = (.ok none, { f with files := addLine f.files name s.line }) := by
  simp only [accept, h, Option.filter_some, decide_true, if_true]

theorem accept_of_opened (hwritable : f.writable = true)
    (h : ∀ name, f.current ≠ some (f.windowOf s.object.time, name)) :
    f.accept s = (.ok (some (fileName s.object.time)),
      { f with
        current := some (f.windowOf s.object.time, fileName s.object.time)
        files := addLine f.files (fileName s.object.time) s.line }) := by
  have hother : f.current.filter (fun c => c.1 = f.windowOf s.object.time) = none := by
    refine Option.filter_eq_none_iff.2 fun c hc hwindow => h c.2 ?_
    rw [hc, ← of_decide_eq_true hwindow]
  simp only [accept, hother, hwritable, if_true]

/-- No record is refused while the directory can be written to. -/
theorem accept_isOk (h : f.writable = true) :
    (f.accept s).1.isOk = true ∧ (f.accept s).2.writable = true := by
  by_cases hcurrent : ∃ name, f.current = some (f.windowOf s.object.time, name)
  · obtain ⟨name, hname⟩ := hcurrent
    rw [accept_of_current hname]
    exact ⟨rfl, h⟩
  · rw [accept_of_opened h (not_exists.1 hcurrent)]
    exact ⟨rfl, h⟩

end

/-!
The file of a window when one more record comes.
-/

section
variable {period : UInt64} {records : List StreamedRecord} {s : StreamedRecord} {w : Int}
  {file : String × List String}

theorem exists_mem_concat :
    (∃ r ∈ records ++ [s], windowStart period r.object.time = w) ↔
      (∃ r ∈ records, windowStart period r.object.time = w) ∨
        windowStart period s.object.time = w := by
  simp only [List.mem_append, List.mem_singleton, or_and_right, exists_or, exists_eq_left]

theorem inWindow_concat_of_eq (h : windowStart period s.object.time = w) :
    inWindow period (records ++ [s]) w = inWindow period records w ++ [s] := by
  rw [inWindow, List.filter_append, List.filter_singleton, decide_eq_true h]
  rfl

theorem fileOf?_concat_of_ne (h : windowStart period s.object.time ≠ w) :
    fileOf? period (records ++ [s]) w = fileOf? period records w := by
  have hsame : inWindow period (records ++ [s]) w = inWindow period records w := by
    rw [inWindow, List.filter_append, List.filter_singleton, decide_eq_false h]
    exact List.append_nil _
  rw [fileOf?, hsame, fileOf?]

theorem fileOf?_concat_of_none (h : windowStart period s.object.time = w)
    (hnone : fileOf? period records w = none) :
    fileOf? period (records ++ [s]) w = some (fileName s.object.time, [s.line]) := by
  rw [fileOf?, Option.map_eq_none_iff, List.head?_eq_none_iff] at hnone
  rw [fileOf?, inWindow_concat_of_eq h, hnone]
  rfl

theorem fileOf?_concat_of_some (h : windowStart period s.object.time = w)
    (hsome : fileOf? period records w = some file) :
    fileOf? period (records ++ [s]) w = some (file.1, file.2 ++ [s.line]) := by
  obtain ⟨first, hfirst, rfl⟩ := Option.map_eq_some_iff.1 hsome
  rw [fileOf?, inWindow_concat_of_eq h, List.head?_append, hfirst, List.map_append]
  rfl

theorem exists_first_of_fileOf? (hsome : fileOf? period records w = some file) :
    ∃ first ∈ records, windowStart period first.object.time = w ∧
      file.1 = fileName first.object.time := by
  obtain ⟨first, hfirst, rfl⟩ := Option.map_eq_some_iff.1 hsome
  obtain ⟨hmem, hwindow⟩ := List.mem_filter.1 (List.mem_of_head? hfirst)
  exact ⟨first, hmem, of_decide_eq_true hwindow, rfl⟩

theorem fileOf?_eq_none_iff :
    fileOf? period records w = none ↔ ∀ s ∈ records, windowStart period s.object.time ≠ w := by
  rw [fileOf?, Option.map_eq_none_iff, List.head?_eq_none_iff, inWindow, List.filter_eq_nil_iff]
  simp only [decide_eq_true_eq, ne_eq]

/-- A name is the name of one window only. -/
theorem eq_of_fileOf?_name {records' : List StreamedRecord} {w' : Int} {file' : String × List String}
    (hnormal : ∀ s ∈ records, s.object.time.Normal) (hnormal' : ∀ s ∈ records', s.object.time.Normal)
    (hsome : fileOf? period records w = some file) (hsome' : fileOf? period records' w' = some file')
    (hname : file.1 = file'.1) : w = w' := by
  obtain ⟨first, hfirst, rfl, hfile⟩ := exists_first_of_fileOf? hsome
  obtain ⟨first', hfirst', rfl, hfile'⟩ := exists_first_of_fileOf? hsome'
  rw [hfile, hfile'] at hname
  rw [fileName_inj (hnormal first hfirst) (hnormal' first' hfirst') hname]

end

/-- The files are those of the windows, in ascending order, and the last window is the current one. -/
structure Filed (period : UInt64) (records : List StreamedRecord) (f : RecordFiles)
    (windows : List Int) : Prop where
  period_eq : f.period = period
  writable : f.writable = true
  ascending : windows.Pairwise (· < ·)
  mem_iff : ∀ w, w ∈ windows ↔ ∃ s ∈ records, windowStart period s.object.time = w
  files_eq : f.files.map some = windows.map (fileOf? period records)
  current_eq : f.current =
    windows.getLast?.bind fun w => (fileOf? period records w).map fun file => (w, file.1)

namespace Filed

variable {period : UInt64} {records : List StreamedRecord} {f : RecordFiles} {windows : List Int}
  {s : StreamedRecord}

theorem empty (directory : String) (period : UInt64) :
    Filed period [] (RecordFiles.empty directory period true) [] where
  period_eq := rfl
  writable := rfl
  ascending := .nil
  mem_iff := by simp
  files_eq := rfl
  current_eq := rfl

theorem exists_fileOf? (h : Filed period records f windows) {w : Int} (hw : w ∈ windows) :
    ∃ file ∈ f.files, fileOf? period records w = some file := by
  have hmem : fileOf? period records w ∈ f.files.map some := h.files_eq ▸ List.mem_map_of_mem hw
  obtain ⟨file, hfile, heq⟩ := List.mem_map.1 hmem
  exact ⟨file, hfile, heq.symm⟩

theorem exists_window (h : Filed period records f windows) {file : String × List String}
    (hfile : file ∈ f.files) : ∃ w ∈ windows, fileOf? period records w = some file := by
  have hmem : some file ∈ windows.map (fileOf? period records) :=
    h.files_eq ▸ List.mem_map_of_mem hfile
  exact List.mem_map.1 hmem

/-- No window is later than that of the next record. -/
theorem le_windowStart (h : Filed period records f windows)
    (hlater : ∀ r ∈ records, s.object.time.isAfter r.object.time = true) {w : Int}
    (hw : w ∈ windows) : w ≤ windowStart period s.object.time := by
  obtain ⟨r, hr, rfl⟩ := (h.mem_iff w).1 hw
  exact windowStart_le (hlater r hr)

theorem windowOf_eq (h : Filed period records f windows) (hperiod : period.toNat ≤ 0x7fffffffffffffff)
    (t : Timestamp) : f.windowOf t = windowStart period t := by
  rw [RecordFiles.windowOf_eq (h.period_eq ▸ hperiod), h.period_eq]

/-- The window of the next record, if it is there, is the last one. -/
theorem getLast?_eq (h : Filed period records f windows)
    (hlater : ∀ r ∈ records, s.object.time.isAfter r.object.time = true)
    (hw : windowStart period s.object.time ∈ windows) :
    windows.getLast? = some (windowStart period s.object.time) := by
  obtain rfl | ⟨earlier, last, rfl⟩ := List.eq_nil_or_concat' windows
  · cases hw
  rw [List.getLast?_concat]
  rcases List.mem_append.1 hw with hearlier | hlast
  · have hlt : windowStart period s.object.time < last :=
      (List.pairwise_append.1 h.ascending).2.2 _ hearlier _ (List.mem_singleton_self last)
    exact absurd hlt (h.le_windowStart hlater List.mem_concat_self).not_gt
  · rw [List.mem_singleton.1 hlast]

/-- A record of a window that is there goes to the file of that window, which is the last one. -/
theorem accept_same (h : Filed period records f windows)
    (hperiod : period.toNat ≤ 0x7fffffffffffffff) (hnormal : ∀ r ∈ records, r.object.time.Normal)
    (hlater : ∀ r ∈ records, s.object.time.isAfter r.object.time = true)
    (hw : windowStart period s.object.time ∈ windows) :
    Filed period (records ++ [s]) (f.accept s).2 windows := by
  obtain ⟨file, hfile, hsome⟩ := h.exists_fileOf? hw
  have hcurrent : f.current = some (f.windowOf s.object.time, file.1) := by
    rw [h.current_eq, h.getLast?_eq hlater hw, h.windowOf_eq hperiod, Option.bind_some, hsome]
    rfl
  -- The line is added where the name is that of the current file, and there is only one such name.
  have hgrown (w : Int) (hmem : w ∈ windows) :
      (fileOf? period records w).map (grow file.1 s.line) =
        fileOf? period (records ++ [s]) w := by
    obtain ⟨other, -, hother⟩ := h.exists_fileOf? hmem
    by_cases hwindow : windowStart period s.object.time = w
    · subst hwindow
      rw [fileOf?_concat_of_some rfl hsome, hsome, Option.map_some, grow, if_pos rfl]
    · have hname : other.1 ≠ file.1 := fun hname =>
        hwindow (eq_of_fileOf?_name hnormal hnormal hother hsome hname).symm
      rw [fileOf?_concat_of_ne hwindow, hother, Option.map_some, grow, if_neg hname]
  rw [accept_of_current hcurrent]
  refine ⟨h.period_eq, h.writable, h.ascending, fun w => ?_, ?_, ?_⟩
  · rw [exists_mem_concat, h.mem_iff]
    exact ⟨.inl, fun hmem => hmem.elim id fun hwindow => (h.mem_iff w).1 (hwindow ▸ hw)⟩
  · change (addLine f.files file.1 s.line).map some = _
    have hsomes : (f.files.map (grow file.1 s.line)).map some =
        (f.files.map some).map (Option.map (grow file.1 s.line)) := by
      rw [List.map_map, List.map_map]
      rfl
    rw [addLine_of_mem ⟨file, hfile, rfl⟩, hsomes, h.files_eq, List.map_map]
    exact List.map_congr_left hgrown
  · change f.current = _
    rw [hcurrent, h.getLast?_eq hlater hw, h.windowOf_eq hperiod, Option.bind_some,
      fileOf?_concat_of_some rfl hsome]
    rfl

/-- A record of a window that is not there yet opens a file. -/
theorem accept_new (h : Filed period records f windows)
    (hperiod : period.toNat ≤ 0x7fffffffffffffff)
    (hnormal : ∀ r ∈ records ++ [s], r.object.time.Normal)
    (hlater : ∀ r ∈ records, s.object.time.isAfter r.object.time = true)
    (hw : windowStart period s.object.time ∉ windows) :
    Filed period (records ++ [s]) (f.accept s).2
      (windows ++ [windowStart period s.object.time]) := by
  have hnone : fileOf? period records (windowStart period s.object.time) = none :=
    fileOf?_eq_none_iff.2 fun r hr hwindow => hw ((h.mem_iff _).2 ⟨r, hr, hwindow⟩)
  have hopened := fileOf?_concat_of_none rfl hnone
  have hcurrent (name : String) : f.current ≠ some (f.windowOf s.object.time, name) := by
    rw [h.current_eq, h.windowOf_eq hperiod]
    intro hname
    obtain ⟨w, hlast, hname⟩ := Option.bind_eq_some_iff.1 hname
    obtain ⟨file, -, hname⟩ := Option.map_eq_some_iff.1 hname
    cases hname
    exact hw (List.mem_of_getLast? hlast)
  have hname (file : String × List String) (hfile : file ∈ f.files) :
      file.1 ≠ fileName s.object.time := by
    obtain ⟨w, hmem, hsome⟩ := h.exists_window hfile
    intro hname
    have hwindow := eq_of_fileOf?_name (fun r hr => hnormal r (List.mem_append_left _ hr)) hnormal
      hsome hopened hname
    exact hw (hwindow ▸ hmem)
  rw [accept_of_opened h.writable hcurrent]
  refine ⟨h.period_eq, h.writable, ?_, fun w => ?_, ?_, ?_⟩
  · refine List.pairwise_append.2 ⟨h.ascending, List.pairwise_singleton _ _, fun w hmem w' hw' => ?_⟩
    obtain rfl := List.mem_singleton.1 hw'
    exact lt_of_le_of_ne (h.le_windowStart hlater hmem) (ne_of_mem_of_not_mem hmem hw)
  · rw [exists_mem_concat, List.mem_append, List.mem_singleton, h.mem_iff, eq_comm (a := w)]
  · change (addLine f.files _ s.line).map some = _
    have hkept (w : Int) (hmem : w ∈ windows) :
        fileOf? period (records ++ [s]) w = fileOf? period records w :=
      fileOf?_concat_of_ne (ne_of_mem_of_not_mem hmem hw).symm
    rw [addLine_of_notMem hname, List.map_append, List.map_append, h.files_eq,
      List.map_congr_left hkept, List.map_singleton, List.map_singleton, hopened]
  · change some (f.windowOf s.object.time, fileName s.object.time) = _
    rw [List.getLast?_concat, Option.bind_some, hopened, h.windowOf_eq hperiod]
    rfl

/-- What one more record keeps. -/
theorem accept (h : Filed period records f windows) (hperiod : period.toNat ≤ 0x7fffffffffffffff)
    (hnormal : ∀ r ∈ records ++ [s], r.object.time.Normal)
    (hlater : ∀ r ∈ records, s.object.time.isAfter r.object.time = true) :
    ∃ windows, Filed period (records ++ [s]) (f.accept s).2 windows := by
  by_cases hw : windowStart period s.object.time ∈ windows
  · have hnormal (r : StreamedRecord) (hr : r ∈ records) := hnormal r (List.mem_append_left _ hr)
    exact ⟨windows, h.accept_same hperiod hnormal hlater hw⟩
  · exact ⟨_, h.accept_new hperiod hnormal hlater hw⟩

/-- From the first record to the last, as long as the times ascend. -/
theorem after (directory : String) (hperiod : period.toNat ≤ 0x7fffffffffffffff)
    (hnormal : ∀ r ∈ records, r.object.time.Normal)
    (hlater : records.Pairwise fun r r' => r'.object.time.isAfter r.object.time = true) :
    ∃ windows, Filed period records ((RecordFiles.empty directory period true).after records)
      windows := by
  induction records using List.reverseRecOn with
  | nil => exact ⟨[], .empty directory period⟩
  | append_singleton records s ih =>
    obtain ⟨hbefore, -, hlast⟩ := List.pairwise_append.1 hlater
    have hnormal' (r : StreamedRecord) (hr : r ∈ records) := hnormal r (List.mem_append_left _ hr)
    obtain ⟨windows, h⟩ := ih hnormal' hbefore
    rw [RecordFiles.after, List.foldl_append]
    exact h.accept hperiod hnormal fun r hr => hlast r hr s (List.mem_singleton_self s)

/-- Files of different windows have different names. -/
theorem nodup_names (h : Filed period records f windows)
    (hnormal : ∀ r ∈ records, r.object.time.Normal) : (f.files.map (·.1)).Nodup := by
  have happart : (windows.map (fileOf? period records)).Pairwise fun a b =>
      ∀ file file', a = some file → b = some file' → file.1 ≠ file'.1 :=
    List.pairwise_map.2 (h.ascending.imp fun hlt _ _ hsome hsome' hname =>
      hlt.ne (eq_of_fileOf?_name hnormal hnormal hsome hsome' hname))
  rw [← h.files_eq, List.pairwise_map] at happart
  exact List.pairwise_map.2 (happart.imp fun hne => hne _ _ rfl rfl)

theorem lines_eq (h : Filed period records f windows) :
    f.files.flatMap (·.2) = (windows.flatMap (inWindow period records)).map StreamedRecord.line := by
  have hlines (w : Int) : ((fileOf? period records w).map (·.2)).getD [] =
      (inWindow period records w).map StreamedRecord.line := by
    rw [fileOf?]
    cases inWindow period records w <;> rfl
  have hfiles := congrArg (List.map fun file => (file.map (·.2)).getD []) h.files_eq
  rw [List.map_map, List.map_map] at hfiles
  rw [List.map_flatMap, List.flatMap_def, List.flatMap_def]
  exact congrArg List.flatten (hfiles.trans (List.map_congr_left fun w _ => hlines w))

end Filed

end RecordFiles

end ConsensusLedger
