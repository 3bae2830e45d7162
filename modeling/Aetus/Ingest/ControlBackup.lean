import Aetus.Base.Glob
import Aetus.Base.Padded
import Aetus.Base.Sorting
import Aetus.Ingest.ControlDb
import Mathlib.Data.Char
import Mathlib.Data.Finset.Card

/-!
Backups of SQLite databases in one directory (control_backup.py): each call writes a file and
then prunes the files that its pattern matches.
-/

set_option autoImplicit false

namespace Aetus.Ingest
open Aetus.Base

structure SqliteDatabase where
  parent : List Char
  name : List Char
  deriving DecidableEq

/-- `Path.stem`: the name without what follows its last dot, which stands inside the name. -/
def SqliteDatabase.stem (database : SqliteDatabase) : List Char :=
  match afterLast '.' database.name with
  | none => database.name
  | some suffix =>
    let front := database.name.take (database.name.length - suffix.length - 1)
    if suffix = [] ∨ front = [] then database.name else front

structure UtcTime where
  year : Nat
  month : Nat
  day : Nat
  hour : Nat
  minute : Nat
  second : Nat
  date_valid : 1 ≤ year ∧ year ≤ 9999 ∧ 1 ≤ month ∧ month ≤ 12 ∧ 1 ≤ day ∧ day ≤ 31
  time_valid : hour < 24 ∧ minute < 60 ∧ second < 60

namespace UtcTime

def fields (t : UtcTime) : List Nat := [t.year, t.month, t.day, t.hour, t.minute, t.second]

theorem fields_injective : Function.Injective fields := by
  intro t u h
  cases t
  cases u
  simpa [fields] using h

instance : LinearOrder UtcTime := LinearOrder.lift' fields fields_injective

/-- `strftime("%Y%m%dT%H%M%SZ")`. -/
def stamp (t : UtcTime) : List Char :=
  paddedDigits 4 t.year ++ (paddedDigits 2 t.month ++ (paddedDigits 2 t.day ++ 'T' ::
    (paddedDigits 2 t.hour ++ (paddedDigits 2 t.minute ++ (paddedDigits 2 t.second ++ ['Z'])))))

@[simp] theorem length_stamp (t : UtcTime) : t.stamp.length = 16 := by simp [stamp]

theorem stamp_append_lt {t u : UtcTime} (h : t < u) (rest : List Char) :
    t.stamp ++ rest < u.stamp ++ rest := by
  have hdate := t.date_valid
  have hdate' := u.date_valid
  have htime := t.time_valid
  have htime' := u.time_valid
  have hfields : t.fields < u.fields := h
  simp only [fields, List.cons_lt_cons_iff, List.not_lt_nil, and_false, or_false] at hfields
  simp only [stamp, List.append_assoc, List.cons_append]
  -- field by field, each of a fixed width
  simp (disch := omega) only [paddedDigits_append_lt_iff, List.cons_lt_cons_iff]
  tauto

end UtcTime

structure BackupFile where
  name : List Char
  mtime : Nat
  database : SqliteDatabase
  time : UtcTime
  deriving DecidableEq

inductive BackupError where
  | fileNotFound (database : SqliteDatabase)
  | sqliteError
  | valueError (message : String)
  deriving DecidableEq

def backupName (stem : List Char) (time : UtcTime) : List Char :=
  stem ++ '-' :: (time.stamp ++ ".db".toList)

def backupPattern (stem : List Char) : List Char := stem ++ "-*.db".toList

/-- The order in which the backups are looked at: by time of modification and name, the greatest
first. -/
def Newer (f g : BackupFile) : Prop :=
  g.mtime < f.mtime ∨ g.mtime = f.mtime ∧ g.name ≤ f.name

instance : DecidableRel Newer := fun f g => by unfold Newer; infer_instance

instance : Std.Total Newer where
  total f g := by
    rcases Nat.lt_trichotomy f.mtime g.mtime with h | h | h
    · exact .inr (.inl h)
    · rcases le_total f.name g.name with hname | hname
      · exact .inr (.inr ⟨h, hname⟩)
      · exact .inl (.inr ⟨h.symm, hname⟩)
    · exact .inl (.inl h)

instance : IsTrans BackupFile Newer where
  trans f g h hfg hgh := by
    rcases hfg with hfg | ⟨hfg, hname⟩
    · rcases hgh with hgh | ⟨hgh, -⟩
      · exact .inl (hgh.trans hfg)
      · exact .inl (hgh ▸ hfg)
    · rcases hgh with hgh | ⟨hgh, hname'⟩
      · exact .inl (hfg ▸ hgh)
      · exact .inr ⟨hgh.trans hfg, hname'.trans hname⟩

/-- `Path.glob`, which takes `**` for a whole component only. -/
def globFiles (pattern : List Char) (files : List BackupFile) :
    Except BackupError (List BackupFile) :=
  if "**".toList <:+: pattern then
    .error (.valueError "Invalid pattern: '**' can only be an entire path component")
  else .ok (files.filter fun file => fnmatch pattern file.name)

def pruneSqliteBackups (files : List BackupFile) (dbStem : List Char) (keep : Nat) :
    Except BackupError (List BackupFile) :=
  match globFiles (backupPattern dbStem) files with
  | .error e => .error e
  | .ok backups =>
    let removed := (backups.insertionSort Newer).drop keep
    .ok (files.filter fun file => !(removed.map BackupFile.name).contains file.name)

/-- What comes of reading the database and writing the temporary file. -/
inductive CopyOutcome where
  | missing
  | failed
  | copied
  deriving DecidableEq

structure BackupCall where
  database : SqliteDatabase
  time : UtcTime
  mtime : Nat
  outcome : CopyOutcome

/-- The directory after `tmp_target.replace(target)`. -/
def BackupCall.written (call : BackupCall) (files : List BackupFile) : List BackupFile :=
  files.filter (·.name ≠ backupName call.database.stem call.time) ++
    [⟨backupName call.database.stem call.time, call.mtime, call.database, call.time⟩]

/-- The name of the backup, and the files that are in the directory afterwards. -/
def backupSqliteDatabase (retentionCount : Option Int) (call : BackupCall)
    (files : List BackupFile) : Except BackupError (List Char) × List BackupFile :=
  match call.outcome with
  | .missing => (.error (.fileNotFound call.database), files)
  | .failed => (.error .sqliteError, files)
  | .copied =>
    let target := backupName call.database.stem call.time
    let written := call.written files
    match retentionCount with
    | none => (.ok target, written)
    | some count =>
      if 0 < count then
        match pruneSqliteBackups written call.database.stem count.toNat with
        | .error e => (.error e, written)
        | .ok left => (.ok target, left)
      else (.ok target, written)

def backupDirectory (retentionCount : Option Int) (calls : List BackupCall) : List BackupFile :=
  calls.foldl (fun files call => (backupSqliteDatabase retentionCount call files).2) []

/-! Names -/

theorem backupName_lt (stem : List Char) {t u : UtcTime} (h : t < u) :
    backupName stem t < backupName stem u := by
  unfold backupName
  refine List.append_left_lt ?_
  rw [List.cons_lt_cons_iff]
  exact .inr ⟨rfl, UtcTime.stamp_append_lt h _⟩

theorem backupName_inj {stem stem' : List Char} {t u : UtcTime}
    (h : backupName stem t = backupName stem' u) : stem = stem' ∧ t = u := by
  unfold backupName at h
  have hlength : ('-' :: (t.stamp ++ ".db".toList)).length =
      ('-' :: (u.stamp ++ ".db".toList)).length := by
    simp
  obtain ⟨rfl, -⟩ := List.append_inj' h hlength
  refine ⟨rfl, ?_⟩
  rcases lt_trichotomy t u with hlt | heq | hlt
  · have hless := backupName_lt stem hlt
    rw [backupName, h, ← backupName] at hless
    exact absurd hless (lt_irrefl _)
  · exact heq
  · have hless := backupName_lt stem hlt
    rw [backupName, ← h, ← backupName] at hless
    exact absurd hless (lt_irrefl _)

/-! What the calls have made -/

/-- The calls are made at times that do not go back, by either clock. -/
def Increasing (calls : List BackupCall) : Prop :=
  calls.Pairwise fun call later => call.time ≤ later.time ∧ call.mtime ≤ later.mtime

instance (calls : List BackupCall) : Decidable (Increasing calls) := by
  unfold Increasing; infer_instance

def backupTimes (calls : List BackupCall) (database : SqliteDatabase) : Finset UtcTime :=
  ((calls.filter fun call => call.outcome = .copied ∧ call.database = database).map
    BackupCall.time).toFinset

theorem mem_backupTimes {calls : List BackupCall} {database : SqliteDatabase} {t : UtcTime} :
    t ∈ backupTimes calls database ↔
      ∃ call ∈ calls, call.outcome = .copied ∧ call.database = database ∧ call.time = t := by
  simp [backupTimes, and_assoc]

/-- The newest `keep` backups of a database are there, or all of them if they are fewer. -/
def NewestKept (keep : Nat) (calls : List BackupCall) (files : List BackupFile) : Prop :=
  ∀ database, ∀ t ∈ backupTimes calls database,
    ((backupTimes calls database).filter (t < ·)).card < keep →
      ∃ file ∈ files, file.database = database ∧ file.time = t

def BackupFile.MadeBy (file : BackupFile) (call : BackupCall) : Prop :=
  call.outcome = .copied ∧ call.database = file.database ∧ call.time = file.time ∧
    call.mtime = file.mtime

structure FilesMade (calls : List BackupCall) (files : List BackupFile) : Prop where
  named : ∀ file ∈ files, file.name = backupName file.database.stem file.time
  made : ∀ file ∈ files, ∃ call ∈ calls, file.MadeBy call

structure DirectoryInvariant (keep : Nat) (calls : List BackupCall) (files : List BackupFile) :
    Prop extends FilesMade calls files where
  names : (files.map BackupFile.name).Nodup
  newest : NewestKept keep calls files

/-- No other database has a backup under the name that the call writes, and what the pattern of
the call matches are its own backups, or no more names, with the one it writes, than are kept. -/
def Undisputed (keep : Nat) (call : BackupCall) (files : List BackupFile) : Prop :=
  let target := backupName call.database.stem call.time
  let pattern := backupPattern call.database.stem
  (∀ file ∈ files, file.name = target → file.database = call.database) ∧
  ((∀ file ∈ files, fnmatch pattern file.name = true → file.database = call.database) ∨
    ((target :: (files.map BackupFile.name).filter (· ≠ target)).filter
      (fnmatch pattern)).length ≤ keep)

variable {keep : Nat} {calls : List BackupCall} {files : List BackupFile} {call : BackupCall}

theorem mem_written {file : BackupFile} : file ∈ call.written files ↔
    (file ∈ files ∧ file.name ≠ backupName call.database.stem call.time) ∨
      file = ⟨backupName call.database.stem call.time, call.mtime, call.database, call.time⟩ := by
  simp [BackupCall.written]

theorem mtime_le_of_time_lt (hincreasing : Increasing calls)
    (hmade : ∀ file ∈ files, ∃ call ∈ calls, file.MadeBy call) {f g : BackupFile} (hf : f ∈ files)
    (hg : g ∈ files) (h : f.time < g.time) : f.mtime ≤ g.mtime := by
  obtain ⟨callF, hcallF, -, -, htimeF, hmtimeF⟩ := hmade f hf
  obtain ⟨callG, hcallG, -, -, htimeG, hmtimeG⟩ := hmade g hg
  have hall : ∀ ⦃a⦄, a ∈ calls → ∀ ⦃b⦄, b ∈ calls → a.time < b.time → a.mtime ≤ b.mtime :=
    List.Pairwise.forall_of_forall_of_flip (fun _ _ _ => le_rfl)
      (hincreasing.imp fun hle _ => hle.2)
      (hincreasing.imp fun hle hlt => absurd hlt hle.1.not_gt)
  rw [← hmtimeF, ← hmtimeG]
  exact hall hcallF hcallG (by rwa [htimeF, htimeG])

/-! The write -/

theorem FilesMade.append (h : FilesMade calls files) (call : BackupCall) :
    FilesMade (calls ++ [call]) files where
  named := h.named
  made file hfile := by
    obtain ⟨earlier, hearlier, hmade⟩ := h.made file hfile
    exact ⟨earlier, List.mem_append_left _ hearlier, hmade⟩

theorem FilesMade.sublist (h : FilesMade calls files) {left : List BackupFile}
    (hleft : left.Sublist files) : FilesMade calls left where
  named file hfile := h.named file (hleft.subset hfile)
  made file hfile := h.made file (hleft.subset hfile)

theorem FilesMade.written (h : FilesMade calls files) (hcopied : call.outcome = .copied) :
    FilesMade (calls ++ [call]) (call.written files) where
  named := by
    intro file hfile
    rcases mem_written.mp hfile with ⟨hold, -⟩ | rfl
    · exact h.named file hold
    · rfl
  made := by
    intro file hfile
    rcases mem_written.mp hfile with ⟨hold, -⟩ | rfl
    · exact (h.append call).made file hold
    · exact ⟨call, List.mem_append_right _ List.mem_cons_self, hcopied, rfl, rfl, rfl⟩

theorem DirectoryInvariant.written (h : DirectoryInvariant keep calls files)
    (hcopied : call.outcome = .copied) (hundisputed : Undisputed keep call files) :
    DirectoryInvariant keep (calls ++ [call]) (call.written files) where
  toFilesMade := h.toFilesMade.written hcopied
  names := by
    rw [BackupCall.written, List.map_append, List.nodup_append]
    refine ⟨(h.names.sublist (List.filter_sublist.map _)), by simp, ?_⟩
    intro name hname other hother
    obtain ⟨file, hfile, rfl⟩ := List.mem_map.mp hname
    rw [List.map_singleton, List.mem_singleton] at hother
    rw [hother]
    simpa using (List.mem_filter.mp hfile).2
  newest := by
    intro database t ht hcount
    by_cases hnow : database = call.database ∧ t = call.time
    · obtain ⟨rfl, rfl⟩ := hnow
      exact ⟨_, mem_written.mpr (.inr rfl), rfl, rfl⟩
    · have hold : t ∈ backupTimes calls database := by
        obtain ⟨earlier, hearlier, hdone, hdatabase, htime⟩ := mem_backupTimes.mp ht
        rcases List.mem_append.mp hearlier with hbefore | hlast
        · exact mem_backupTimes.mpr ⟨earlier, hbefore, hdone, hdatabase, htime⟩
        · rw [List.mem_singleton.mp hlast] at hdatabase htime
          exact absurd ⟨hdatabase.symm, htime.symm⟩ hnow
      have hfewer : ((backupTimes calls database).filter (t < ·)).card < keep := by
        refine (Finset.card_le_card (Finset.filter_subset_filter _ fun u hu => ?_)).trans_lt hcount
        obtain ⟨earlier, hearlier, hrest⟩ := mem_backupTimes.mp hu
        exact mem_backupTimes.mpr ⟨earlier, List.mem_append_left _ hearlier, hrest⟩
      obtain ⟨file, hfile, rfl, rfl⟩ := h.newest database t hold hfewer
      refine ⟨file, mem_written.mpr (.inl ⟨hfile, fun hname => hnow ?_⟩), rfl, rfl⟩
      -- a file that the write replaces is of the same database and the same second
      have htime := (backupName_inj ((h.named file hfile).symm.trans hname)).2
      exact ⟨hundisputed.1 file hfile hname, htime⟩

theorem mem_written_of_other (hundisputed : Undisputed keep call files) {file : BackupFile}
    (hfile : file ∈ files) (hother : file.database ≠ call.database) : file ∈ call.written files :=
  mem_written.mpr (.inl ⟨hfile, fun hname => hother (hundisputed.1 file hfile hname)⟩)

theorem length_matched (call : BackupCall) (files : List BackupFile) (pattern : List Char) :
    ((call.written files).filter fun file => fnmatch pattern file.name).length =
      ((backupName call.database.stem call.time :: (files.map BackupFile.name).filter
        (· ≠ backupName call.database.stem call.time)).filter (fnmatch pattern)).length := by
  have hnames : (call.written files).map BackupFile.name = (files.map BackupFile.name).filter
      (· ≠ backupName call.database.stem call.time) ++
        [backupName call.database.stem call.time] := by
    rw [BackupCall.written, List.map_append, List.filter_map]
    rfl
  have hperm := (List.perm_append_singleton (backupName call.database.stem call.time)
    ((files.map BackupFile.name).filter
      (· ≠ backupName call.database.stem call.time))).filter (fnmatch pattern)
  rw [← hperm.length_eq, ← hnames, List.filter_map, List.length_map]
  rfl

/-! The pruning -/

theorem pruneSqliteBackups_sublist {left : List BackupFile} {dbStem : List Char}
    (h : pruneSqliteBackups files dbStem keep = .ok left) : left.Sublist files := by
  unfold pruneSqliteBackups at h
  split at h
  · cases h
  · cases h
    exact List.filter_sublist

/-- A file that the pruning removes is matched, and comes behind `keep` others that are. -/
theorem removed_of_prune (hnames : (files.map BackupFile.name).Nodup) {left : List BackupFile}
    {dbStem : List Char} (h : pruneSqliteBackups files dbStem keep = .ok left)
    {file : BackupFile} (hfile : file ∈ files) (hremoved : file ∉ left) :
    fnmatch (backupPattern dbStem) file.name = true ∧
      ∃ before : List BackupFile, before.Nodup ∧ before.length = keep ∧ ∀ other ∈ before,
        other ∈ files ∧ fnmatch (backupPattern dbStem) other.name = true ∧
          Newer other file ∧ other ≠ file := by
  unfold pruneSqliteBackups globFiles at h
  split at h
  · cases h
  · next backups hbackups =>
    split at hbackups
    · cases hbackups
    · cases hbackups
      cases h
      have hmem : file.name ∈ (((files.filter fun file =>
          fnmatch (backupPattern dbStem) file.name).insertionSort Newer).drop keep).map
            BackupFile.name := by
        simpa [hfile] using hremoved
      obtain ⟨other, hother, hname⟩ := List.mem_map.mp hmem
      have hmatched := (List.mem_insertionSort Newer).mp (List.mem_of_mem_drop hother)
      obtain rfl : other = file :=
        List.inj_on_of_nodup_map hnames (List.mem_of_mem_filter hmatched) hfile hname
      obtain ⟨before, hnodup, hlength, hbefore⟩ :=
        before_of_mem_drop ((List.Nodup.of_map _ hnames).filter _) hother
      refine ⟨(List.mem_filter.mp hmatched).2, before, hnodup, hlength, fun y hy => ?_⟩
      obtain ⟨hy, hnewer, hne⟩ := hbefore y hy
      obtain ⟨hyfiles, hymatched⟩ := List.mem_filter.mp hy
      exact ⟨hyfiles, hymatched, hnewer, hne⟩

/-- A file is removed only where all that the pattern matches are the call's own backups. -/
theorem own_of_removed (hnames : ((call.written files).map BackupFile.name).Nodup)
    (hundisputed : Undisputed keep call files) {left : List BackupFile}
    (h : pruneSqliteBackups (call.written files) call.database.stem keep = .ok left)
    {file : BackupFile} (hfile : file ∈ call.written files) (hremoved : file ∉ left)
    {other : BackupFile} (hother : other ∈ call.written files)
    (hmatched : fnmatch (backupPattern call.database.stem) other.name = true) :
    other.database = call.database := by
  rcases hundisputed.2 with hown | hfew
  · rcases mem_written.mp hother with ⟨hold, -⟩ | rfl
    · exact hown other hold hmatched
    · rfl
  · obtain ⟨hfilematched, before, hnodup, hlength, hbefore⟩ :=
      removed_of_prune hnames h hfile hremoved
    have hcons : (file :: before).Nodup :=
      List.nodup_cons.mpr ⟨fun hmem => (hbefore file hmem).2.2.2 rfl, hnodup⟩
    have hsubset : file :: before ⊆ (call.written files).filter fun file =>
        fnmatch (backupPattern call.database.stem) file.name := by
      intro y hy
      rcases List.mem_cons.mp hy with rfl | hy
      · exact List.mem_filter.mpr ⟨hfile, hfilematched⟩
      · exact List.mem_filter.mpr ⟨(hbefore y hy).1, (hbefore y hy).2.1⟩
    have hmore := (List.subperm_of_subset hcons hsubset).length_le
    rw [List.length_cons, hlength, length_matched] at hmore
    omega

theorem time_lt_of_newer (hincreasing : Increasing calls)
    (h : DirectoryInvariant keep calls files) {f g : BackupFile} (hf : f ∈ files) (hg : g ∈ files)
    (hdatabase : g.database = f.database) (hnewer : Newer g f) (hne : g ≠ f) : f.time < g.time := by
  rcases lt_trichotomy f.time g.time with hlt | heq | hlt
  · exact hlt
  · have hname : g.name = f.name := by rw [h.named g hg, h.named f hf, hdatabase, heq]
    exact absurd (List.inj_on_of_nodup_map h.names hg hf hname) hne
  · have hmtime := mtime_le_of_time_lt hincreasing h.made hg hf hlt
    have hname : g.name < f.name := by
      rw [h.named g hg, h.named f hf, hdatabase]
      exact backupName_lt _ hlt
    rcases hnewer with hlater | ⟨-, hafter⟩
    · omega
    · exact absurd hname hafter.not_gt

theorem DirectoryInvariant.pruned (hincreasing : Increasing calls)
    (h : DirectoryInvariant keep calls (call.written files))
    (hundisputed : Undisputed keep call files) {left : List BackupFile}
    (hpruned : pruneSqliteBackups (call.written files) call.database.stem keep = .ok left) :
    DirectoryInvariant keep calls left where
  toFilesMade := h.toFilesMade.sublist (pruneSqliteBackups_sublist hpruned)
  names := h.names.sublist ((pruneSqliteBackups_sublist hpruned).map _)
  newest := by
    intro database t ht hcount
    obtain ⟨file, hfile, rfl, rfl⟩ := h.newest database t ht hcount
    refine ⟨file, ?_, rfl, rfl⟩
    by_contra hremoved
    obtain ⟨hmatched, before, hnodup, hlength, hbefore⟩ :=
      removed_of_prune h.names hpruned hfile hremoved
    have hown : ∀ other ∈ call.written files,
        fnmatch (backupPattern call.database.stem) other.name = true →
          other.database = call.database :=
      fun other => own_of_removed h.names hundisputed hpruned hfile hremoved
    -- the files before it are of as many later seconds, each a backup of the same database
    have hlater : ∀ other ∈ before,
        other.database = file.database ∧ file.time < other.time := by
      intro other hother
      obtain ⟨hin, hothermatched, hnewer, hne⟩ := hbefore other hother
      have hsame : other.database = file.database :=
        (hown other hin hothermatched).trans (hown file hfile hmatched).symm
      exact ⟨hsame, time_lt_of_newer hincreasing h hfile hin hsame hnewer hne⟩
    have htimes : (before.map BackupFile.time).Nodup := by
      refine List.Nodup.map_on (fun f hf g hg htime => ?_) hnodup
      refine List.inj_on_of_nodup_map h.names (hbefore f hf).1 (hbefore g hg).1 ?_
      rw [h.named f (hbefore f hf).1, h.named g (hbefore g hg).1, (hlater f hf).1, (hlater g hg).1,
        htime]
    have hsubset : (before.map BackupFile.time).toFinset ⊆
        (backupTimes calls file.database).filter (file.time < ·) := by
      intro t ht
      obtain ⟨other, hother, rfl⟩ := List.mem_map.mp (List.mem_toFinset.mp ht)
      obtain ⟨maker, hmaker, hdone, hdatabase, htime, -⟩ := h.made other (hbefore other hother).1
      refine Finset.mem_filter.mpr ⟨mem_backupTimes.mpr ⟨maker, hmaker, hdone, ?_, htime⟩,
        (hlater other hother).2⟩
      rw [hdatabase, (hlater other hother).1]
    have hcard := Finset.card_le_card hsubset
    rw [List.toFinset_card_of_nodup htimes, List.length_map, hlength] at hcard
    omega

/-! A call, and a run -/

theorem backupTimes_append_of_raised (hraised : call.outcome ≠ .copied)
    (database : SqliteDatabase) : backupTimes (calls ++ [call]) database = backupTimes calls database := by
  simp [backupTimes, hraised]

theorem DirectoryInvariant.raised (h : DirectoryInvariant keep calls files)
    (hraised : call.outcome ≠ .copied) : DirectoryInvariant keep (calls ++ [call]) files where
  toFilesMade := h.toFilesMade.append call
  names := h.names
  newest := by
    intro database
    rw [backupTimes_append_of_raised hraised]
    exact h.newest database

theorem backupSqliteDatabase_cases (hkeep : 1 ≤ keep) (call : BackupCall)
    (files : List BackupFile) :
    let after := (backupSqliteDatabase (some keep) call files).2
    (call.outcome ≠ .copied ∧ after = files) ∨
      (call.outcome = .copied ∧ (after = call.written files ∨
        pruneSqliteBackups (call.written files) call.database.stem keep = .ok after)) := by
  unfold backupSqliteDatabase
  cases houtcome : call.outcome with
  | missing => exact .inl ⟨nofun, rfl⟩
  | failed => exact .inl ⟨nofun, rfl⟩
  | copied =>
    refine .inr ⟨rfl, ?_⟩
    have hpos : (0 : Int) < keep := by omega
    simp only [if_pos hpos, Int.toNat_natCast]
    cases hpruned : pruneSqliteBackups (call.written files) call.database.stem keep with
    | error e => exact .inl rfl
    | ok left => exact .inr rfl

theorem DirectoryInvariant.after_call (hkeep : 1 ≤ keep)
    (hincreasing : Increasing (calls ++ [call]))
    (h : DirectoryInvariant keep calls files)
    (hundisputed : call.outcome = .copied → Undisputed keep call files) :
    DirectoryInvariant keep (calls ++ [call])
      (backupSqliteDatabase (some keep) call files).2 := by
  rcases backupSqliteDatabase_cases hkeep call files with
    ⟨hraised, hafter⟩ | ⟨hcopied, hafter | hpruned⟩
  · rw [hafter]
    exact h.raised hraised
  · rw [hafter]
    exact h.written hcopied (hundisputed hcopied)
  · exact (h.written hcopied (hundisputed hcopied)).pruned hincreasing (hundisputed hcopied) hpruned

theorem other_stays (hkeep : 1 ≤ keep) (h : DirectoryInvariant keep calls files)
    (hundisputed : call.outcome = .copied → Undisputed keep call files) {file : BackupFile}
    (hfile : file ∈ files) (hother : file.database ≠ call.database) :
    file ∈ (backupSqliteDatabase (some keep) call files).2 := by
  rcases backupSqliteDatabase_cases hkeep call files with
    ⟨-, hafter⟩ | ⟨hcopied, hafter | hpruned⟩
  · rw [hafter]
    exact hfile
  · rw [hafter]
    exact mem_written_of_other (hundisputed hcopied) hfile hother
  · have hwritten := mem_written_of_other (hundisputed hcopied) hfile hother
    have hnames := (h.written hcopied (hundisputed hcopied)).names
    by_contra hremoved
    have hmatched := (removed_of_prune hnames hpruned hwritten hremoved).1
    exact hother (own_of_removed hnames (hundisputed hcopied) hpruned hwritten hremoved hwritten
      hmatched)

def RunUndisputed (keep : Nat) (calls : List BackupCall) : Prop :=
  ∀ n call, calls[n]? = some call → call.outcome = .copied →
    Undisputed keep call (backupDirectory (some keep) (calls.take n))

theorem backupDirectory_take_succ {retentionCount : Option Int} {n : Nat}
    (hcall : calls[n]? = some call) : backupDirectory retentionCount (calls.take (n + 1)) =
      (backupSqliteDatabase retentionCount call
        (backupDirectory retentionCount (calls.take n))).2 := by
  rw [List.take_add_one, hcall, Option.toList_some, backupDirectory, List.foldl_append]
  rfl

theorem directoryInvariant_run (hkeep : 1 ≤ keep) (hincreasing : Increasing calls)
    (hundisputed : RunUndisputed keep calls) (n : Nat) :
    DirectoryInvariant keep (calls.take n) (backupDirectory (some keep) (calls.take n)) := by
  induction n with
  | zero => exact ⟨⟨nofun, nofun⟩, List.nodup_nil, fun database t ht => by simp [backupTimes] at ht⟩
  | succ n ih =>
    cases hcall : calls[n]? with
    | none =>
      rw [List.take_add_one, hcall, Option.toList_none, List.append_nil]
      exact ih
    | some call =>
      have hprefix : Increasing (calls.take n ++ [call]) := by
        have htake : calls.take n ++ [call] = calls.take (n + 1) := by
          rw [List.take_add_one, hcall, Option.toList_some]
        rw [htake]
        exact hincreasing.sublist (List.take_sublist _ _)
      rw [backupDirectory_take_succ hcall, List.take_add_one, hcall]
      exact ih.after_call hkeep hprefix (hundisputed n call hcall)

/-- After each call every database has its newest backups, and the call has removed no backup of
another database. -/
def BackupsKept (keep : Nat) (calls : List BackupCall) : Prop :=
  ∀ n, NewestKept keep (calls.take n) (backupDirectory (some keep) (calls.take n)) ∧
    ∀ call, calls[n]? = some call →
      ∀ file ∈ backupDirectory (some keep) (calls.take n), file.database ≠ call.database →
        file ∈ backupDirectory (some keep) (calls.take (n + 1))

/-- In a run whose calls are undisputed the newest backups are kept, and no call removes a
backup of another database. -/
theorem backups_kept (hkeep : 1 ≤ keep) (hincreasing : Increasing calls)
    (hundisputed : RunUndisputed keep calls) : BackupsKept keep calls := by
  intro n
  have hinvariant := directoryInvariant_run hkeep hincreasing hundisputed n
  refine ⟨hinvariant.newest, fun call hcall file hfile hother => ?_⟩
  rw [backupDirectory_take_succ hcall]
  exact other_stays hkeep hinvariant (hundisputed n call hcall) hfile hother

/-! Stems that keep out of each other's way -/

/-- Of two databases neither stem goes on, after a dash, as the other does, and no stem has a
character that means something in a pattern. -/
def StemsApart (calls : List BackupCall) : Prop :=
  ∀ call ∈ calls, (∀ c ∈ call.database.stem, isGlobChar c = false) ∧
    ∀ other ∈ calls, other.database ≠ call.database →
      ¬(call.database.stem ++ ['-'] <+: other.database.stem ++ ['-'])

instance (calls : List BackupCall) : Decidable (StemsApart calls) := by
  have (text : List Char) : Decidable (∀ c ∈ text, isGlobChar c = false) :=
    List.decidableBAll _ text
  unfold StemsApart
  infer_instance

theorem filesMade_run (hkeep : 1 ≤ keep) (n : Nat) :
    FilesMade (calls.take n) (backupDirectory (some keep) (calls.take n)) := by
  induction n with
  | zero => exact ⟨nofun, nofun⟩
  | succ n ih =>
    cases hcall : calls[n]? with
    | none =>
      rw [List.take_add_one, hcall, Option.toList_none, List.append_nil]
      exact ih
    | some call =>
      rw [backupDirectory_take_succ hcall, List.take_add_one, hcall]
      rcases backupSqliteDatabase_cases hkeep call
          (backupDirectory (some keep) (calls.take n)) with
        ⟨-, hafter⟩ | ⟨hcopied, hafter | hpruned⟩
      · rw [hafter]
        exact ih.append call
      · rw [hafter]
        exact ih.written hcopied
      · exact (ih.written hcopied).sublist (pruneSqliteBackups_sublist hpruned)

theorem dash_notMem_stamp (t : UtcTime) : '-' ∉ t.stamp := by
  have hdate := t.date_valid
  have htime := t.time_valid
  have hnot : ∀ {width n : Nat}, n < 10 ^ width → '-' ∉ paddedDigits width n := fun hn hmem =>
    absurd (paddedDigits_isDigit hn hmem) (by decide)
  simp only [UtcTime.stamp, List.mem_append, List.mem_cons, List.not_mem_nil, not_or, or_false]
  exact ⟨hnot (by omega), hnot (by omega), hnot (by omega), by decide, hnot (by omega),
    hnot (by omega), hnot (by omega), by decide⟩

/-- The name of a backup begins with a stem and a dash only where its own stem does. -/
theorem prefix_of_prefix_backupName {stem other : List Char} {t : UtcTime}
    (h : stem ++ ['-'] <+: backupName other t) : stem ++ ['-'] <+: other ++ ['-'] := by
  have hname : backupName other t = other ++ ['-'] ++ (t.stamp ++ ".db".toList) := by
    simp [backupName]
  rw [hname] at h
  rcases List.prefix_or_prefix_of_prefix h (List.prefix_append (other ++ ['-']) _) with
    hshort | ⟨rest, hrest⟩
  · exact hshort
  · rcases List.eq_nil_or_concat rest with rfl | ⟨front, c, rfl⟩
    · rw [← hrest, List.append_nil]
    · -- the longer text would end in a dash of the stamp
      rw [List.concat_eq_append, ← List.append_assoc] at hrest
      obtain ⟨-, hlast⟩ := List.append_inj' hrest rfl
      obtain rfl := List.singleton_inj.mp hlast
      rw [← hrest, List.append_assoc, List.prefix_append_right_inj] at h
      have hmem : '-' ∈ t.stamp ++ ".db".toList := h.subset (by simp)
      rcases List.mem_append.mp hmem with hstamp | hsuffix
      · exact absurd hstamp (dash_notMem_stamp t)
      · exact absurd hsuffix (by decide)

/-- Where the stems are apart, no pattern matches a backup of another database. -/
theorem runUndisputed_of_apart (hkeep : 1 ≤ keep) (hapart : StemsApart calls) :
    RunUndisputed keep calls := by
  intro n call hcall _
  obtain ⟨hplain, hothers⟩ := hapart call (List.mem_of_getElem? hcall)
  have hmade : FilesMade (calls.take n) (backupDirectory (some keep) (calls.take n)) :=
    filesMade_run hkeep n
  have hown : ∀ file ∈ backupDirectory (some keep) (calls.take n),
      call.database.stem ++ ['-'] <+: file.name → file.database = call.database := by
    intro file hfile hprefix
    obtain ⟨maker, hmaker, -, hdatabase, -⟩ := hmade.made file hfile
    by_contra hne
    rw [hmade.named file hfile, ← hdatabase] at hprefix
    exact hothers maker (List.mem_of_mem_take hmaker) (hdatabase ▸ hne)
      (prefix_of_prefix_backupName hprefix)
  refine ⟨fun file hfile hname => hown file hfile ?_, .inl fun file hfile hmatched => ?_⟩
  · rw [hname]
    exact ⟨call.time.stamp ++ ".db".toList, by simp [backupName]⟩
  · have htext : ∀ c ∈ call.database.stem ++ ['-'], isGlobChar c = false := by
      intro c hc
      rcases List.mem_append.mp hc with hstem | hdash
      · exact hplain c hstem
      · obtain rfl := List.mem_singleton.mp hdash
        decide
    have hpattern : backupPattern call.database.stem =
        (call.database.stem ++ ['-']) ++ "*.db".toList := by
      rw [backupPattern, List.append_assoc]
      rfl
    rw [hpattern, fnmatch_append htext] at hmatched
    obtain ⟨rest, hname, -⟩ := hmatched
    exact hown file hfile (hname ▸ List.prefix_append _ _)

def callAt (name : String) (minute : Nat) (h : minute < 60) : BackupCall :=
  ⟨⟨"data".toList, name.toList⟩,
    ⟨2026, 5, 5, 0, minute, 0, by decide, ⟨by decide, h, by decide⟩⟩, minute, .copied⟩

def twoDatabases : List BackupCall :=
  [callAt "control.db" 0 (by decide), callAt "events.db" 1 (by decide),
    callAt "control.db" 2 (by decide)]

theorem backups_kept_two : BackupsKept 1 twoDatabases :=
  backups_kept (by decide) (by decide)
    (runUndisputed_of_apart (by decide) (by decide))

/-- The pattern of `control.db` matches the backup of `control-eu.db`. -/
theorem not_backups_kept :
    ¬BackupsKept 1 [callAt "control-eu.db" 0 (by decide), callAt "control.db" 1 (by decide)] := by
  intro h
  have hstays := (h 1).2 (callAt "control.db" 1 (by decide)) rfl
  revert hstays
  decide

end Aetus.Ingest
